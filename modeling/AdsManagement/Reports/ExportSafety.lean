/-
  File:      Reports/ExportSafety.lean
  Subject:   REPORTS AND THEIR FILES STAY CONSISTENT over every interleaving of exports and
             reconciliations, and whatever goes astray.

  A row leaves `CREATING` once and is not written again. So what has read `FAILED` may delete at any
  later time, and what is to be finalized keeps its object as long as the row is not `FAILED`
  (`Published`). A storage write that went astray belongs to an export that will never finalize.

  * `ReportInv` -- the invariant; `ReportInv.reports`, `ReportInv.put`, `ReportInv.delete`,
    `ReportInv.lose`, `ReportInv.exportTo`, `ReportInv.reconcileTo` -- one lemma for each kind of
    change;
  * `exports_consistent` -- every reachable world, and every step out of it.
-/
import AdsManagement.Lib.Runs
import AdsManagement.Reports.Exports

namespace AdsManagement.Reports

open Lib Storage List Function

variable {ι κ ρ : Type}

/-! ## 1. The invariant -/

def IsFailed (w : ReportWorld ι κ ρ) (id : ι) : Prop :=
  ∃ row, w.reports id = some row ∧ row.status = .FAILED

def IsCreated (w : ReportWorld ι κ ρ) (id : ι) : Prop :=
  ∃ row, w.reports id = some row ∧ row.status = .CREATED

/-- The object has this hash, or nobody will ask for it. -/
def Published (reference : ι → κ) (w : ReportWorld ι κ ρ) (id : ι) (hash : String) : Prop :=
  IsFailed w id ∨ ∃ object, w.objects (reference id) = some object ∧ object.hashSha256 = hash

/-- An export that has not come to its finalize, and may never do. -/
def ExportPhase.early : ExportPhase κ → Bool
  | .idle => true
  | .rendering => true
  | .abandoning => true
  | _ => false

/-- The row an export has read. -/
def ExportPhase.readRow : ExportPhase κ → Option (Report κ)
  | .confirming _ row => row
  | .recoverConfirming _ row => row
  | .recoverReconfirming _ row => row
  | _ => none

/-- An export that has read `FAILED` and will delete. -/
def ExportPhase.givenUp : ExportPhase κ → Bool
  | .recoverMatching _ => true
  | .recoverDeleting => true
  | _ => false

/-- The candidates of a run. -/
def ReconcilePhase.candidates : ReconcilePhase ι κ → List (ι × Option κ)
  | .idle => []
  | .scanning rest => rest
  | .inspecting id path rest => (id, some path) :: rest
  | .failingMissing id path rest => (id, path) :: rest
  | .readingMissing _ rest => rest
  | .failing id path _ rest => (id, some path) :: rest
  | .reading id path _ rest => (id, some path) :: rest
  | .matching id path _ rest => (id, some path) :: rest
  | .deleting id path rest => (id, some path) :: rest
  | .ended => []

/-- The report whose object a run is about to delete. -/
def ReconcilePhase.givenUp : ReconcilePhase ι κ → Option ι
  | .matching id _ _ _ => some id
  | .deleting id _ _ => some id
  | _ => none

structure ReportInv (reference : ι → κ) (w : ReportWorld ι κ ρ) : Prop where
  paths : ∀ id row, w.reports id = some row → row.filePath = none ∨ row.filePath = some (reference id)
  created : ∀ id row, w.reports id = some row → row.status = .CREATED →
    ∃ object, w.objects (reference id) = some object ∧ row.fileHashSha256 = some object.hashSha256
  finalizing : ∀ id stored, w.exports id = .finalizing stored →
    Published reference w id stored.hashSha256
  astrayFinalize : ∀ id path hash, .finalize id path hash ∈ w.astray → Published reference w id hash
  early : ∀ id, (w.exports id).early = true → ∀ path hash, .finalize id path hash ∉ w.astray
  notCreated : ∀ id, w.exports id = .rendering ∨ w.exports id = .abandoning → ¬ IsCreated w id
  astrayPut : ∀ key object, .put key object ∈ w.astray → ∃ id, key = reference id ∧
    (w.exports id = .abandoning ∨ w.exports id = .threw) ∧ ¬ IsCreated w id ∧
    ∀ path hash, .finalize id path hash ∉ w.astray
  astrayCreate : ∀ id path, .create id path ∈ w.astray → path = reference id
  astrayDelete : ∀ key, .delete key ∈ w.astray → ∃ id, key = reference id ∧ IsFailed w id
  rows : ∀ id row, (w.exports id).readRow = some row → row.status ≠ .CREATING → w.reports id = some row
  givenUp : ∀ id, (w.exports id).givenUp = true → IsFailed w id
  returned : ∀ id row, w.exports id = .returned row → w.reports id = some row ∧ row.status = .CREATED
  candidates : ∀ r, ∀ candidate ∈ (w.reconciles r).candidates,
    candidate.2 = none ∨ candidate.2 = some (reference candidate.1)
  deleting : ∀ r id, (w.reconciles r).givenUp = some id → IsFailed w id

variable {reference : ι → κ} {w w' : ReportWorld ι κ ρ}

theorem ReportInv.start (h : ReportStart reference w) : ReportInv reference w where
  paths := h.paths
  created := h.created
  finalizing id stored hp := by rw [h.exports id] at hp; cases hp
  astrayFinalize id path hash hm := by rw [h.astray] at hm; cases hm
  early id _ path hash hm := by rw [h.astray] at hm; cases hm
  notCreated id hp := by rw [h.exports id] at hp; rcases hp with hp | hp <;> cases hp
  astrayPut key object hm := by rw [h.astray] at hm; cases hm
  astrayCreate id path hm := by rw [h.astray] at hm; cases hm
  astrayDelete key hm := by rw [h.astray] at hm; cases hm
  rows id row hp := by rw [h.exports id] at hp; cases hp
  givenUp id hp := by rw [h.exports id] at hp; cases hp
  returned id row hp := by rw [h.exports id] at hp; cases hp
  candidates r candidate hm := by rw [h.reconciles r] at hm; cases hm
  deleting r id hp := by rw [h.reconciles r] at hp; cases hp

/-! ## 2. Changes of the rows -/

/-- A row that has left `CREATING` stays as it is. -/
def Settled (w w' : ReportWorld ι κ ρ) : Prop :=
  ∀ id row, w.reports id = some row → row.status ≠ .CREATING → w'.reports id = some row

theorem Settled.isFailed (h : Settled w w') {id : ι} (hf : IsFailed w id) : IsFailed w' id := by
  obtain ⟨row, hrow, hs⟩ := hf
  exact ⟨row, h id row hrow (by rw [hs]; decide), hs⟩

/-- The rows change, nothing else does; a row is created only for an export that is to finalize. -/
theorem ReportInv.reports (h : ReportInv reference w) (ho : w'.objects = w.objects)
    (ha : w'.astray = w.astray) (he : w'.exports = w.exports) (hr : w'.reconciles = w.reconciles)
    (hset : Settled w w')
    (hpaths : ∀ id row, w'.reports id = some row → row.filePath = none ∨ row.filePath = some (reference id))
    (hcreated : ∀ id row, w'.reports id = some row → row.status = .CREATED →
      ∃ object, w.objects (reference id) = some object ∧ row.fileHashSha256 = some object.hashSha256)
    (hnew : ∀ id, IsCreated w' id → IsCreated w id ∨
      (∀ object, .put (reference id) object ∉ w.astray) ∧ w.exports id ≠ .rendering ∧
        w.exports id ≠ .abandoning) : ReportInv reference w' := by
  have hpub : ∀ id hash, Published reference w id hash → Published reference w' id hash := by
    rintro id hash (hf | ⟨object, hobj, hh⟩)
    · exact .inl (hset.isFailed hf)
    · exact .inr ⟨object, ho ▸ hobj, hh⟩
  exact
    { paths := hpaths
      created := ho ▸ hcreated
      finalizing := fun id stored hp => hpub _ _ (h.finalizing id stored (he ▸ hp))
      astrayFinalize := fun id path hash hm => hpub _ _ (h.astrayFinalize id path hash (ha ▸ hm))
      early := fun id hp => by
        rw [ha]
        exact h.early id (he ▸ hp)
      notCreated := fun id hp hc => by
        rw [he] at hp
        rcases hnew id hc with hold | ⟨-, h1, h2⟩
        · exact h.notCreated id hp hold
        · exact hp.elim h1 h2
      astrayPut := fun key object hm => by
        rw [ha] at hm ⊢
        obtain ⟨id, rfl, hphase, hnot, hfin⟩ := h.astrayPut key object hm
        refine ⟨id, rfl, he ▸ hphase, fun hc => ?_, hfin⟩
        rcases hnew id hc with hold | ⟨hput, -⟩
        · exact hnot hold
        · exact hput object hm
      astrayCreate := fun id path hm => h.astrayCreate id path (ha ▸ hm)
      astrayDelete := fun key hm => by
        obtain ⟨id, rfl, hf⟩ := h.astrayDelete key (ha ▸ hm)
        exact ⟨id, rfl, hset.isFailed hf⟩
      rows := fun id row hp hs => hset id row (h.rows id row (he ▸ hp) hs) hs
      givenUp := fun id hp => hset.isFailed (h.givenUp id (he ▸ hp))
      returned := fun id row hp => by
        obtain ⟨hrow, hs⟩ := h.returned id row (he ▸ hp)
        exact ⟨hset id row hrow (by rw [hs]; decide), hs⟩
      candidates := fun r => hr ▸ h.candidates r
      deleting := fun r id hp => hset.isFailed (h.deleting r id (hr ▸ hp)) }

section Rows

variable [DecidableEq κ]
variable {row : Report κ} {path : Option κ}

theorem Report.isCreating_eq_true (h : row.isCreating path = true) :
    row.status = .CREATING ∧ row.filePath = path ∧ row.fileHashSha256 = none := by
  simpa [Report.isCreating, and_assoc] using h

theorem Report.finalize_filePath (path : Option κ) (hash : String) (row : Report κ) :
    (row.finalize path hash).filePath = row.filePath := by
  unfold Report.finalize
  split <;> rfl

theorem Report.fail_filePath (path : Option κ) (row : Report κ) :
    (row.fail path).filePath = row.filePath := by
  unfold Report.fail
  split <;> rfl

theorem Report.finalize_of_settled {hash : String} (h : row.status ≠ .CREATING) :
    row.finalize path hash = row :=
  if_neg fun hc => h (Report.isCreating_eq_true hc).1

theorem Report.fail_of_settled (h : row.status ≠ .CREATING) : row.fail path = row :=
  if_neg fun hc => h (Report.isCreating_eq_true hc).1

/-- Giving a report up creates none. -/
theorem Report.fail_ne_created (h : (row.fail path).status = .CREATED) : row.fail path = row := by
  unfold Report.fail at h ⊢
  split at h
  · cases h
  · rename_i hc
    exact if_neg hc

variable [DecidableEq ι]

omit [DecidableEq κ] in
/-- One row is rewritten, and left alone once it is settled. -/
theorem settled_update {id : ι} {f : Report κ → Report κ}
    (hf : ∀ row : Report κ, row.status ≠ .CREATING → f row = row) :
    Settled w { w with reports := update w.reports id ((w.reports id).map f) } := by
  intro id' row hrow hs
  change update w.reports id ((w.reports id).map f) id' = some row
  by_cases he : id' = id
  · subst he
    rw [update_self, hrow, Option.map_some, hf row hs]
  · rw [update_of_ne he]
    exact hrow

/-- **What has left `CREATING` is not written again.** -/
theorem apply_settled (op : ReportOp ι κ) : Settled w (w.apply op) := by
  cases op with
  | create id path =>
    intro id' row hrow hs
    by_cases hnone : w.reports id = none
    · rw [show w.apply (.create id path) = _ from if_pos hnone]
      refine (update_of_ne ?_ _ _).trans hrow
      rintro rfl
      rw [hnone] at hrow
      cases hrow
    · rw [show w.apply (.create id path) = w from if_neg hnone]
      exact hrow
  | finalize id path hash => exact settled_update fun row hs => Report.finalize_of_settled hs
  | fail id path => exact settled_update fun row hs => Report.fail_of_settled hs
  | put key object | delete key => exact fun id row hrow _ => hrow

omit [DecidableEq κ] in
/-- The row of one report after it was rewritten. -/
theorem reports_update_cases {id id' : ι} {f : Report κ → Report κ}
    (h : update w.reports id ((w.reports id).map f) id' = some row) :
    w.reports id' = some row ∨ id' = id ∧ ∃ row0, w.reports id = some row0 ∧ f row0 = row := by
  rcases update_eq_cases h with ⟨he, h'⟩ | ⟨-, h'⟩
  · obtain ⟨row0, hrow0, hf⟩ := Option.map_eq_some_iff.mp h'
    exact .inr ⟨he, row0, hrow0, hf⟩
  · exact .inl h'

theorem ReportInv.create (h : ReportInv reference w) (id : ι) :
    ReportInv reference (w.apply (.create id (reference id))) := by
  have hset := apply_settled (w := w) (.create id (reference id))
  by_cases hnone : w.reports id = none
  · rw [show w.apply (.create id (reference id)) = _ from if_pos hnone] at hset ⊢
    have hcases : ∀ id' row, update w.reports id (some ⟨some (reference id), .CREATING, none⟩) id' =
        some row → w.reports id' = some row ∨ id' = id ∧ row = ⟨some (reference id), .CREATING, none⟩ := by
      intro id' row hrow
      rcases update_eq_cases hrow with ⟨he, h'⟩ | ⟨-, h'⟩
      · exact .inr ⟨he, (Option.some.inj h').symm⟩
      · exact .inl h'
    refine h.reports rfl rfl rfl rfl hset ?_ ?_ ?_
    · intro id' row hrow
      rcases hcases id' row hrow with hold | ⟨rfl, rfl⟩
      · exact h.paths id' row hold
      · exact .inr rfl
    · intro id' row hrow hs
      rcases hcases id' row hrow with hold | ⟨rfl, rfl⟩
      · exact h.created id' row hold hs
      · cases hs
    · rintro id' ⟨row, hrow, hs⟩
      rcases hcases id' row hrow with hold | ⟨rfl, rfl⟩
      · exact .inl ⟨row, hold, hs⟩
      · cases hs
  · rw [show w.apply (.create id (reference id)) = w from if_neg hnone]
    exact h

theorem ReportInv.fail (h : ReportInv reference w) (id : ι) (path : Option κ) :
    ReportInv reference (w.apply (.fail id path)) := by
  refine h.reports rfl rfl rfl rfl (apply_settled _) ?_ ?_ ?_
  · intro id' row hrow
    rcases reports_update_cases hrow with hold | ⟨rfl, row0, hrow0, rfl⟩
    · exact h.paths id' row hold
    · rw [Report.fail_filePath]
      exact h.paths id' row0 hrow0
  · intro id' row hrow hs
    rcases reports_update_cases hrow with hold | ⟨rfl, row0, hrow0, rfl⟩
    · exact h.created id' row hold hs
    · have hsame := Report.fail_ne_created hs
      rw [hsame] at hs ⊢
      exact h.created id' row0 hrow0 hs
  · rintro id' ⟨row, hrow, hs⟩
    rcases reports_update_cases hrow with hold | ⟨rfl, row0, hrow0, rfl⟩
    · exact .inl ⟨row, hold, hs⟩
    · rw [Report.fail_ne_created hs] at hs
      exact .inl ⟨row0, hrow0, hs⟩

/-- A report is created with the hash of its object. -/
theorem ReportInv.finalize (h : ReportInv reference w) {id : ι} {path : κ} {hash : String}
    (hpub : Published reference w id hash) (hput : ∀ object, .put (reference id) object ∉ w.astray)
    (hr : w.exports id ≠ .rendering) (ha : w.exports id ≠ .abandoning) :
    ReportInv reference (w.apply (.finalize id path hash)) := by
  refine h.reports rfl rfl rfl rfl (apply_settled _) ?_ ?_ ?_
  · intro id' row hrow
    rcases reports_update_cases hrow with hold | ⟨rfl, row0, hrow0, rfl⟩
    · exact h.paths id' row hold
    · rw [Report.finalize_filePath]
      exact h.paths id' row0 hrow0
  · intro id' row hrow hs
    rcases reports_update_cases hrow with hold | ⟨rfl, row0, hrow0, rfl⟩
    · exact h.created id' row hold hs
    · unfold Report.finalize at hs ⊢
      split
      · rename_i hc
        -- the row was not given up, so the object is there
        rcases hpub with ⟨row1, hrow1, hf⟩ | ⟨object, hobj, hh⟩
        · rw [hrow0] at hrow1
          cases hrow1
          rw [(Report.isCreating_eq_true hc).1] at hf
          cases hf
        · exact ⟨object, hobj, by rw [hh]⟩
      · rename_i hc
        rw [if_neg hc] at hs
        exact h.created id' row0 hrow0 hs
  · rintro id' ⟨row, hrow, hs⟩
    rcases reports_update_cases hrow with hold | ⟨rfl, -⟩
    · exact .inl ⟨row, hold, hs⟩
    · exact .inr ⟨hput, hr, ha⟩

end Rows

/-! ## 3. Changes of the storage -/

section Storage

variable [DecidableEq κ]

section

variable (h : ReportInv reference w) (hinj : Injective reference) {id : ι}
include h hinj

/-- The object of a report changes that is not created, nor to be finalized unless it was given up. -/
theorem ReportInv.setObject {object : Option StoredObject} (hnot : ¬ IsCreated w id)
    (hexp : ∀ stored, w.exports id = .finalizing stored → IsFailed w id)
    (hfin : ∀ path hash, .finalize id path hash ∈ w.astray → IsFailed w id) :
    ReportInv reference { w with objects := update w.objects (reference id) object } := by
  have hother : ∀ id', id' ≠ id →
      update w.objects (reference id) object (reference id') = w.objects (reference id') :=
    fun id' hne => update_of_ne (fun he => hne (hinj he)) _ _
  have hpub : ∀ id' hash, (id' = id → IsFailed w id) → Published reference w id' hash →
      Published reference { w with objects := update w.objects (reference id) object } id' hash := by
    intro id' hash hfailed hp
    by_cases he : id' = id
    · exact .inl (he ▸ hfailed he)
    · rcases hp with hf | ⟨object', hobj, hh⟩
      · exact .inl hf
      · exact .inr ⟨object', (hother id' he).trans hobj, hh⟩
  exact
    { h with
      created := fun id' row hrow hs => by
        have hne : id' ≠ id := by
          rintro rfl
          exact hnot ⟨row, hrow, hs⟩
        obtain ⟨object', hobj, hh⟩ := h.created id' row hrow hs
        exact ⟨object', (hother id' hne).trans hobj, hh⟩
      finalizing := fun id' stored hp => by
        refine hpub id' _ ?_ (h.finalizing id' stored hp)
        rintro rfl
        exact hexp stored hp
      astrayFinalize := fun id' path hash hm => by
        refine hpub id' _ ?_ (h.astrayFinalize id' path hash hm)
        rintro rfl
        exact hfin path hash hm }

/-- An object is written for an export that is not to finalize another one. -/
theorem ReportInv.put
    {object : StoredObject} (hnot : ¬ IsCreated w id) (hexp : ∀ stored, w.exports id ≠ .finalizing stored)
    (hfin : ∀ path hash, .finalize id path hash ∉ w.astray) :
    ReportInv reference { w with objects := update w.objects (reference id) (some object) } :=
  h.setObject hinj hnot (fun stored hp => absurd hp (hexp stored)) fun path hash hm =>
    absurd hm (hfin path hash)

/-- The object of a report that was given up is deleted. -/
theorem ReportInv.delete (hf : IsFailed w id) :
    ReportInv reference { w with objects := update w.objects (reference id) none } := by
  refine h.setObject hinj ?_ (fun _ _ => hf) fun _ _ _ => hf
  rintro ⟨row, hrow, hs⟩
  obtain ⟨row', hrow', hs'⟩ := hf
  rw [hrow] at hrow'
  cases hrow'
  rw [hs] at hs'
  cases hs'

end

end Storage

/-! ## 4. Calls that go astray, and calls that move -/

/-- What may go astray. -/
structure MayStray (reference : ι → κ) (w : ReportWorld ι κ ρ) (op : ReportOp ι κ) : Prop where
  finalize : ∀ id path hash, op = .finalize id path hash → Published reference w id hash ∧
    (w.exports id).early = false ∧ ∀ object, .put (reference id) object ∉ w.astray
  put : ∀ key object, op = .put key object → ∃ id, key = reference id ∧
    w.exports id = .abandoning ∧ ¬ IsCreated w id
  create : ∀ id path, op = .create id path → path = reference id
  delete : ∀ key, op = .delete key → ∃ id, key = reference id ∧ IsFailed w id

theorem ReportInv.lose (h : ReportInv reference w) {op : ReportOp ι κ} (hop : MayStray reference w op) :
    ReportInv reference (w.lose op) :=
  { h with
    astrayFinalize := fun id path hash hm => by
      rcases mem_cons.mp hm with heq | hm
      · exact (hop.finalize id path hash heq.symm).1
      · exact h.astrayFinalize id path hash hm
    early := fun id hp path hash hm => by
      rcases mem_cons.mp hm with heq | hm
      · have := (hop.finalize id path hash heq.symm).2.1
        rw [show (w.exports id).early = true from hp] at this
        cases this
      · exact h.early id hp path hash hm
    astrayPut := fun key object hm => by
      rcases mem_cons.mp hm with heq | hm
      · obtain ⟨id, rfl, hphase, hnot⟩ := hop.put key object heq.symm
        refine ⟨id, rfl, .inl hphase, hnot, fun path hash hm' => ?_⟩
        rcases mem_cons.mp hm' with heq' | hm'
        · rw [← heq] at heq'
          cases heq'
        · exact h.early id (by rw [hphase]; rfl) path hash hm'
      · obtain ⟨id, rfl, hphase, hnot, hfin⟩ := h.astrayPut key object hm
        refine ⟨id, rfl, hphase, hnot, fun path hash hm' => ?_⟩
        rcases mem_cons.mp hm' with heq' | hm'
        · exact (hop.finalize id path hash heq'.symm).2.2 object hm
        · exact hfin path hash hm'
    astrayCreate := fun id path hm => by
      rcases mem_cons.mp hm with heq | hm
      · exact hop.create id path heq.symm
      · exact h.astrayCreate id path hm
    astrayDelete := fun key hm => by
      rcases mem_cons.mp hm with heq | hm
      · exact hop.delete key heq.symm
      · exact h.astrayDelete key hm }

/-- What has arrived is no longer astray. -/
theorem ReportInv.arrived (h : ReportInv reference w) {rest : List (ReportOp ι κ)}
    (hsub : ∀ op ∈ rest, op ∈ w.astray) : ReportInv reference { w with astray := rest } :=
  { h with
    astrayFinalize := fun id path hash hm => h.astrayFinalize id path hash (hsub _ hm)
    early := fun id hp path hash hm => h.early id hp path hash (hsub _ hm)
    astrayPut := fun key object hm => by
      obtain ⟨id, rfl, hphase, hnot, hfin⟩ := h.astrayPut key object (hsub _ hm)
      exact ⟨id, rfl, hphase, hnot, fun path hash hm' => hfin path hash (hsub _ hm')⟩
    astrayCreate := fun id path hm => h.astrayCreate id path (hsub _ hm)
    astrayDelete := fun key hm => h.astrayDelete key (hsub _ hm) }

/-- The phase an export may go to. -/
structure MayEnter (reference : ι → κ) (w : ReportWorld ι κ ρ) (id : ι) (phase : ExportPhase κ) : Prop where
  finalizing : ∀ stored, phase = .finalizing stored → Published reference w id stored.hashSha256
  early : phase.early = true → ∀ path hash, .finalize id path hash ∉ w.astray
  notCreated : phase = .rendering ∨ phase = .abandoning → ¬ IsCreated w id
  /-- An export whose object is astray has ended, or will give its report up. -/
  left : w.exports id = .abandoning ∨ w.exports id = .threw → phase = .abandoning ∨ phase = .threw
  rows : ∀ row, phase.readRow = some row → row.status ≠ .CREATING → w.reports id = some row
  givenUp : phase.givenUp = true → IsFailed w id
  returned : ∀ row, phase = .returned row → w.reports id = some row ∧ row.status = .CREATED

/-- An export that throws. -/
theorem MayEnter.threw (w : ReportWorld ι κ ρ) (id : ι) : MayEnter reference w id .threw where
  finalizing := nofun
  early := nofun
  notCreated := nofun
  left _ := .inr rfl
  rows := nofun
  givenUp := nofun
  returned := nofun

section Moves

variable [DecidableEq ι]

theorem ReportInv.exportTo (h : ReportInv reference w) {id : ι} {phase : ExportPhase κ}
    (hp : MayEnter reference w id phase) : ReportInv reference (w.exportTo id phase) :=
  { h with
    finalizing := fun id' stored hq => by
      rcases update_eq_cases hq with ⟨rfl, hq'⟩ | ⟨-, hq'⟩
      · exact hp.finalizing stored hq'
      · exact h.finalizing id' stored hq'
    early := fun id' hq => by
      rcases update_reads ExportPhase.early hq with ⟨rfl, hq'⟩ | ⟨-, hq'⟩
      · exact hp.early hq'
      · exact h.early id' hq'
    notCreated := fun id' hq => by
      rcases update_cases (fun phase : ExportPhase κ => phase = .rendering ∨ phase = .abandoning) hq with
        ⟨rfl, hq'⟩ | ⟨-, hq'⟩
      · exact hp.notCreated hq'
      · exact h.notCreated id' hq'
    astrayPut := fun key object hm => by
      obtain ⟨id', rfl, hphase, hrest⟩ := h.astrayPut key object hm
      refine ⟨id', rfl, ?_, hrest⟩
      change update w.exports id phase id' = _ ∨ update w.exports id phase id' = _
      by_cases he : id' = id
      · subst he
        rw [update_self]
        exact hp.left hphase
      · rw [update_of_ne he]
        exact hphase
    rows := fun id' row hq => by
      rcases update_reads ExportPhase.readRow hq with ⟨rfl, hq'⟩ | ⟨-, hq'⟩
      · exact hp.rows row hq'
      · exact h.rows id' row hq'
    givenUp := fun id' hq => by
      rcases update_reads ExportPhase.givenUp hq with ⟨rfl, hq'⟩ | ⟨-, hq'⟩
      · exact hp.givenUp hq'
      · exact h.givenUp id' hq'
    returned := fun id' row hq => by
      rcases update_eq_cases hq with ⟨rfl, hq'⟩ | ⟨-, hq'⟩
      · exact hp.returned row hq'
      · exact h.returned id' row hq' }

omit [DecidableEq ι] in
theorem ReportInv.reconcileTo [DecidableEq ρ] (h : ReportInv reference w) {r : ρ} {phase : ReconcilePhase ι κ}
    (hc : ∀ candidate ∈ phase.candidates, candidate.2 = none ∨ candidate.2 = some (reference candidate.1))
    (hd : ∀ id, phase.givenUp = some id → IsFailed w id) : ReportInv reference (w.reconcileTo r phase) :=
  { h with
    candidates := fun r' candidate hq => by
      rcases update_cases (fun phase : ReconcilePhase ι κ => candidate ∈ phase.candidates) hq with
        ⟨rfl, hq'⟩ | ⟨-, hq'⟩
      · exact hc candidate hq'
      · exact h.candidates r' candidate hq'
    deleting := fun r' id hq => by
      rcases update_reads ReconcilePhase.givenUp hq with ⟨rfl, hq'⟩ | ⟨-, hq'⟩
      · exact hd id hq'
      · exact h.deleting r' id hq' }

end Moves

/-! ## 5. Steps -/

/-- An export that goes on: it has read no row, or just its own. -/
theorem MayEnter.goOn {id : ι} {phase : ExportPhase κ}
    (hl : ¬ (w.exports id = .abandoning ∨ w.exports id = .threw)) (hf : ∀ stored, phase ≠ .finalizing stored)
    (he : phase.early = false) (hr : phase.readRow = none ∨ phase.readRow = w.reports id)
    (hg : phase.givenUp = false) (ht : ∀ row, phase ≠ .returned row) : MayEnter reference w id phase where
  finalizing stored hp := absurd hp (hf stored)
  early hp := by rw [he] at hp; cases hp
  notCreated hp := by rcases hp with rfl | rfl <;> cases he
  left hp := absurd hp hl
  rows row hp _ := by
    rcases hr with hr | hr
    · rw [hr] at hp
      cases hp
    · exact hr ▸ hp
  givenUp hp := by rw [hg] at hp; cases hp
  returned row hp := absurd hp (ht row)

/-- A statement or storage call that only gives up or deletes may go astray. -/
theorem mayStray_fail (w : ReportWorld ι κ ρ) (id : ι) (path : Option κ) :
    MayStray reference w (.fail id path) := ⟨nofun, nofun, nofun, nofun⟩

theorem mayStray_delete {id : ι} (hf : IsFailed w id) : MayStray reference w (.delete (reference id)) where
  finalize := nofun
  put := nofun
  create := nofun
  delete key hk := by
    cases hk
    exact ⟨id, rfl, hf⟩

section Steps

variable [DecidableEq κ]
variable {row : Option (Report κ)} {stored : StoredObject}

/-- What is confirmed is the row that was read, and it is created. -/
theorem eq_of_confirmCommitted {object : Option StoredObject} {path : κ} {committed : Report κ}
    (h : confirmCommittedStoredReport row object path stored = some committed) :
    row = some committed ∧ committed.status = .CREATED := by
  unfold confirmCommittedStoredReport at h
  split at h
  · rename_i hc
    subst h
    simp only [isCommitted, Option.any_some, Bool.and_eq_true, decide_eq_true_eq] at hc
    exact ⟨rfl, hc.1.1.1⟩
  · cases h

/-- A call returns a report that it has read, and that was confirmed. -/
theorem MayEnter.confirmed (h : ReportInv reference w) {id : ι} {object : Option StoredObject}
    {committed : Report κ} (hl : ¬ (w.exports id = .abandoning ∨ w.exports id = .threw))
    (hread : (w.exports id).readRow = row)
    (hc : confirmCommittedStoredReport row object (reference id) stored = some committed) :
    MayEnter reference w id (.returned committed) where
  finalizing := nofun
  early := nofun
  notCreated := nofun
  left hp := absurd hp hl
  rows := nofun
  givenUp := nofun
  returned row' hp := by
    cases hp
    obtain ⟨hrow, hs⟩ := eq_of_confirmCommitted hc
    exact ⟨h.rows id committed (hread.trans hrow) (by rw [hs]; decide), hs⟩

/-- A report that was read as given up is given up. -/
theorem ReportInv.isFailed_of_isGivenUp (h : ReportInv reference w) {id : ι} {path : κ}
    (hread : (w.exports id).readRow = row) (hg : isGivenUp row path = true) : IsFailed w id := by
  obtain ⟨row', hrow, hc⟩ := Option.any_eq_true .. |>.mp hg
  simp only [Bool.and_eq_true, decide_eq_true_eq] at hc
  have hs := hc.1.1
  exact ⟨row', h.rows id row' (hread.trans hrow) (by rw [hs]; decide), hs⟩

omit [DecidableEq κ] in
theorem MayEnter.matching {id : ι} (hf : IsFailed w id)
    (hl : ¬ (w.exports id = .abandoning ∨ w.exports id = .threw)) :
    MayEnter reference w id (.recoverMatching stored) where
  finalizing := nofun
  early := nofun
  notCreated := nofun
  left hp := absurd hp hl
  rows := nofun
  givenUp _ := hf
  returned := nofun

variable [DecidableEq ι]

@[simp] theorem apply_astray (op : ReportOp ι κ) : (w.apply op).astray = w.astray := by
  unfold ReportWorld.apply
  split
  · split <;> rfl
  all_goals rfl

@[simp] theorem apply_exports (op : ReportOp ι κ) : (w.apply op).exports = w.exports := by
  unfold ReportWorld.apply
  split
  · split <;> rfl
  all_goals rfl

theorem apply_create_reports {id : ι} (hn : w.reports id = none) (path : κ) :
    (w.apply (.create id path)).reports id = some ⟨some path, .CREATING, none⟩ := by
  rw [show w.apply (.create id path) = _ from if_pos hn]
  exact update_self _ _ _

omit [DecidableEq κ] [DecidableEq ι] in
/-- Only an export that has given up has its object astray. -/
theorem ReportInv.no_put_astray (h : ReportInv reference w) (hinj : Injective reference) {id : ι}
    (hl : ¬ (w.exports id = .abandoning ∨ w.exports id = .threw)) (object : StoredObject) :
    .put (reference id) object ∉ w.astray := by
  intro hm
  obtain ⟨id', he, hphase, -⟩ := h.astrayPut _ _ hm
  rw [← hinj he] at hphase
  exact hl hphase

theorem ReportInv.arrive (h : ReportInv reference w) (hinj : Injective reference)
    {op : ReportOp ι κ} (hm : op ∈ w.astray) :
    ReportInv reference { w.apply op with astray := w.astray.erase op } := by
  have hsub : ∀ op' ∈ w.astray.erase op, op' ∈ (w.apply op).astray := by
    intro op' hop
    rw [apply_astray]
    exact mem_of_mem_erase hop
  cases op with
  | create id path =>
    rw [h.astrayCreate id path hm] at hsub ⊢
    exact (h.create id).arrived hsub
  | finalize id path hash =>
    have hphase : ∀ phase, w.exports id = phase → phase.early = false := by
      rintro phase rfl
      cases he : (w.exports id).early with
      | false => rfl
      | true => exact absurd hm (h.early id he path hash)
    refine (h.finalize (h.astrayFinalize id path hash hm) ?_ ?_ ?_).arrived hsub
    · intro object hput
      obtain ⟨id', he, -, -, hfin⟩ := h.astrayPut _ _ hput
      rw [← hinj he] at hfin
      exact hfin path hash hm
    · exact fun hp => nomatch hphase _ hp
    · exact fun hp => nomatch hphase _ hp
  | fail id path => exact (h.fail id path).arrived hsub
  | put key object =>
    obtain ⟨id, rfl, hphase, hnot, hfin⟩ := h.astrayPut key object hm
    refine (h.put hinj hnot ?_ hfin).arrived hsub
    intro stored hp
    rw [hp] at hphase
    rcases hphase with hp' | hp' <;> cases hp'
  | delete key =>
    obtain ⟨id, rfl, hf⟩ := h.astrayDelete key hm
    exact (h.delete hinj hf).arrived hsub

section

omit [DecidableEq κ] [DecidableEq ι]

/-- A run deletes under the reference of the report. -/
theorem ReportInv.path_of_deleting (h : ReportInv reference w) {r : ρ} {id : ι} {path : κ}
    {rest : List (ι × Option κ)} (hp : w.reconciles r = .deleting id path rest) : path = reference id := by
  rcases h.candidates r (id, some path) (by rw [hp]; exact mem_cons_self) with hnone | hsome
  · cases hnone
  · exact Option.some.inj hsome

/-- A run goes on to its next candidates. -/
theorem ReportInv.scanning [DecidableEq ρ] (h : ReportInv reference w) {r : ρ} {phase : ReconcilePhase ι κ}
    (hr : w.reconciles r = phase) {rest : List (ι × Option κ)} (hrest : ∀ c ∈ rest, c ∈ phase.candidates) :
    ReportInv reference (w.reconcileTo r (.scanning rest)) :=
  h.reconcileTo (fun candidate hc => h.candidates r candidate (hr ▸ hrest candidate hc)) nofun

end

theorem ReportInv.step [DecidableEq ρ] (h : ReportInv reference w) (hinj : Injective reference)
    (hs : ReportStep reference w w') : ReportInv reference w' := by
  -- an export that has not given up
  have hlive : ∀ {id : ι} {phase : ExportPhase κ}, w.exports id = phase → phase ≠ .abandoning →
      phase ≠ .threw → ¬ (w.exports id = .abandoning ∨ w.exports id = .threw) := by
    rintro id _ rfl h1 h2 (hp | hp)
    · exact h1 hp
    · exact h2 hp
  cases hs with
  | arrive op hm => exact h.arrive hinj hm
  | create id hp hn =>
    refine (h.create id).exportTo ⟨nofun, fun _ => ?_, fun _ => ?_, ?_, nofun, nofun, nofun⟩
    · rw [apply_astray]
      exact h.early id (by rw [hp]; rfl)
    · rintro ⟨row, hrow, hs⟩
      rw [apply_create_reports hn] at hrow
      cases hrow
      cases hs
    · rw [apply_exports, hp]
      exact nofun
  | createLost id hp hn =>
    refine (h.exportTo (.threw w id)).lose ⟨nofun, nofun, fun id' path ho => ?_, nofun⟩
    cases ho
    rfl
  | renderFails id hp =>
    exact h.exportTo ⟨nofun, fun _ => h.early id (by rw [hp]; rfl), fun _ => h.notCreated id (.inl hp),
      fun _ => .inl rfl, nofun, nofun, nofun⟩
  | put id object hp =>
    have hput : ReportInv reference (w.apply (.put (reference id) object)) :=
      h.put hinj (h.notCreated id (.inl hp)) (by rw [hp]; exact nofun) (h.early id (by rw [hp]; rfl))
    refine hput.exportTo ⟨fun stored hst => ?_, nofun, nofun, ?_, nofun, nofun, nofun⟩
    · cases hst
      exact .inr ⟨object, update_self _ _ _, rfl⟩
    · change w.exports id = _ ∨ w.exports id = _ → _
      rw [hp]
      exact nofun
  | putLost id object hp =>
    have habandon : ReportInv reference (w.exportTo id .abandoning) :=
      h.exportTo ⟨nofun, fun _ => h.early id (by rw [hp]; rfl), fun _ => h.notCreated id (.inl hp),
        fun _ => .inl rfl, nofun, nofun, nofun⟩
    refine habandon.lose ⟨nofun, fun key object' ho => ?_, nofun, nofun⟩
    cases ho
    exact ⟨id, rfl, update_self _ _ _, h.notCreated id (.inl hp)⟩
  | finalize id stored hp =>
    have hl := hlive hp nofun nofun
    have hfin : ReportInv reference (w.apply (.finalize id (reference id) stored.hashSha256)) :=
      h.finalize (h.finalizing id stored hp) (h.no_put_astray hinj hl) (by rw [hp]; exact nofun)
        (by rw [hp]; exact nofun)
    exact hfin.exportTo (.goOn hl nofun rfl (.inl rfl) rfl nofun)
  | finalizeLost id stored hp =>
    have hl := hlive hp nofun nofun
    have hmoved : ReportInv reference (w.exportTo id (.recovering stored)) :=
      h.exportTo (.goOn hl nofun rfl (.inl rfl) rfl nofun)
    refine hmoved.lose ⟨fun id' path hash ho => ?_, nofun, nofun, nofun⟩
    cases ho
    refine ⟨h.finalizing id stored hp, ?_, h.no_put_astray hinj hl⟩
    change (update w.exports id _ id).early = false
    rw [update_self]
    rfl
  | read id stored hp | recoverRead id stored hp | recoverReread id stored hp =>
    exact h.exportTo (.goOn (hlive hp nofun nofun) nofun rfl (.inr rfl) rfl nofun)
  | readFails id stored hp | confirmFails id stored row hp =>
    exact h.exportTo (.goOn (hlive hp nofun nofun) nofun rfl (.inl rfl) rfl nofun)
  | confirm id stored row committed hp hc | recoverConfirm id stored row committed hp hc
  | recoverReconfirm id stored row committed hp hc =>
    exact h.exportTo (.confirmed h (hlive hp nofun nofun) (by rw [hp]; rfl) hc)
  | recoverReadFails id stored hp | recoverRereadFails id stored hp
  | recoverMatchFails id stored hp => exact h.exportTo (.threw w id)
  | recoverConfirmFails id stored row hp =>
    refine h.exportTo ?_
    unfold afterRecoverConfirming
    split
    · exact .goOn (hlive hp nofun nofun) nofun rfl (.inl rfl) rfl nofun
    · split
      · rename_i hg
        exact .matching (h.isFailed_of_isGivenUp (by rw [hp]; rfl) hg) (hlive hp nofun nofun)
      · exact .threw w id
  | recoverFail id stored hp =>
    exact (h.fail id _).exportTo (.goOn (hlive hp nofun nofun) nofun rfl (.inl rfl) rfl nofun)
  | recoverFailLost id stored hp =>
    have hmoved : ReportInv reference (w.exportTo id (.recoverReading stored)) :=
      h.exportTo (.goOn (hlive hp nofun nofun) nofun rfl (.inl rfl) rfl nofun)
    exact hmoved.lose (mayStray_fail _ id _)
  | recoverReconfirmFails id stored row hp =>
    refine h.exportTo ?_
    unfold afterRecoverReconfirming
    split
    · rename_i hg
      exact .matching (h.isFailed_of_isGivenUp (by rw [hp]; rfl) hg) (hlive hp nofun nofun)
    · exact .threw w id
  | recoverMatch id stored hp hm =>
    exact h.exportTo ⟨nofun, nofun, nofun, fun hl => absurd hl (hlive hp nofun nofun), nofun,
      fun _ => h.givenUp id (by rw [hp]; rfl), nofun⟩
  | recoverDelete id hp =>
    exact (h.delete hinj (h.givenUp id (by rw [hp]; rfl))).exportTo (.threw _ id)
  | recoverDeleteLost id hp =>
    have hf : IsFailed w id := h.givenUp id (by rw [hp]; rfl)
    exact (h.exportTo (.threw w id)).lose (mayStray_delete hf)
  | abandon id hp => exact (h.fail id _).exportTo (.threw _ id)
  | abandonLost id hp => exact (h.exportTo (.threw w id)).lose (mayStray_fail _ id _)
  | scan r rest hp hc =>
    refine h.reconcileTo (fun candidate hm => ?_) nofun
    obtain ⟨row, hrow, -, hpath⟩ := hc candidate hm
    rw [← hpath]
    exact h.paths candidate.1 row hrow
  | endRun r => exact h.reconcileTo nofun nofun
  | skip r candidate rest hp | inspectFails r id path rest hp
  | readOther r id path stored rest hp | matchFails r id path stored rest hp =>
    exact h.scanning hp fun c hc => mem_cons_of_mem _ hc
  | withoutPath r id rest hp | withPath r id path rest hp | inspect r id path rest object hp ho
  | inspectMissing r id path rest hp ho =>
    exact h.reconcileTo (fun c hc => h.candidates r c (by rw [hp]; exact hc)) nofun
  | failMissing r id path rest hp =>
    exact (h.fail id path).reconcileTo
      (fun c hc => h.candidates r c (by rw [hp]; exact mem_cons_of_mem _ hc)) nofun
  | failMissingLost r id path rest hp =>
    exact (h.lose (mayStray_fail w id path)).reconcileTo
      (fun c hc => h.candidates r c (by rw [hp]; exact mem_cons_of_mem _ hc)) nofun
  | readMissing r id rest hp => exact h.scanning hp fun c hc => hc
  | fail r id path stored rest hp =>
    exact (h.fail id (some path)).reconcileTo (fun c hc => h.candidates r c (by rw [hp]; exact hc)) nofun
  | failLost r id path stored rest hp =>
    exact (h.lose (mayStray_fail w id (some path))).reconcileTo
      (fun c hc => h.candidates r c (by rw [hp]; exact hc)) nofun
  | readFailed r id path stored rest row hp hr hf =>
    refine h.reconcileTo (fun c hc => h.candidates r c (by rw [hp]; exact hc)) fun id' hid => ?_
    cases hid
    exact ⟨row, hr, hf⟩
  | isMatch r id path stored rest hp hm =>
    refine h.reconcileTo (fun c hc => h.candidates r c (by rw [hp]; exact hc)) fun id' hid => ?_
    exact h.deleting r id' (by rw [hp]; exact hid)
  | delete r id path rest hp =>
    have hf : IsFailed w id := h.deleting r id (by rw [hp]; rfl)
    have hpath := h.path_of_deleting hp
    subst hpath
    exact (h.delete hinj hf).scanning hp fun c hc => mem_cons_of_mem _ hc
  | deleteLost r id path rest hp =>
    have hf : IsFailed w id := h.deleting r id (by rw [hp]; rfl)
    have hpath := h.path_of_deleting hp
    subst hpath
    exact (h.lose (mayStray_delete hf)).reconcileTo nofun nofun

/-! ## 6. Runs -/

/-- What holds at any moment: a report that was created has an object of its hash, and what an
    export has returned is created. -/
structure ReportSafe (reference : ι → κ) (w : ReportWorld ι κ ρ) : Prop where
  created : ∀ id row, w.reports id = some row → row.status = .CREATED →
    ∃ object, w.objects (reference id) = some object ∧ row.fileHashSha256 = some object.hashSha256
  returned : ∀ id row, w.exports id = .returned row → w.reports id = some row ∧ row.status = .CREATED

/-- What holds of every step: `CREATED` and `FAILED` are not left, and an object goes only while its
    report is `FAILED`. -/
structure ReportStepSafe (reference : ι → κ) (w w' : ReportWorld ι κ ρ) : Prop where
  settled : Settled w w'
  deleted : ∀ id, w.objects (reference id) ≠ none → w'.objects (reference id) = none → IsFailed w id

theorem ReportStep.settled [DecidableEq ρ] (hs : ReportStep reference w w') : Settled w w' := by
  cases hs with
  | arrive op hm => exact apply_settled op
  | create id hp hn => exact apply_settled (.create id (reference id))
  | finalize id stored hp => exact apply_settled (.finalize id (reference id) stored.hashSha256)
  | recoverFail id stored hp | abandon id hp => exact apply_settled (.fail id (some (reference id)))
  | failMissing r id path rest hp => exact apply_settled (.fail id path)
  | fail r id path stored rest hp => exact apply_settled (.fail id (some path))
  | _ => exact fun _ _ hrow _ => hrow

/-- Only a delete takes an object away. -/
theorem eq_delete_of_apply (op : ReportOp ι κ) {key : κ} (h : w.objects key ≠ none)
    (h' : (w.apply op).objects key = none) : op = .delete key := by
  cases op with
  | create id path =>
    unfold ReportWorld.apply at h'
    dsimp only at h'
    split at h'
    · exact absurd h' h
    · exact absurd h' h
  | finalize id path hash | fail id path => exact absurd h' h
  | put key' object =>
    rcases update_eq_cases h' with ⟨-, hsome⟩ | ⟨-, hold⟩
    · cases hsome
    · exact absurd hold h
  | delete key' =>
    rcases update_eq_cases h' with ⟨rfl, -⟩ | ⟨-, hold⟩
    · rfl
    · exact absurd hold h

theorem ReportInv.deleted [DecidableEq ρ] (h : ReportInv reference w) (hinj : Injective reference)
    (hs : ReportStep reference w w') {id : ι} (ho : w.objects (reference id) ≠ none)
    (ho' : w'.objects (reference id) = none) : IsFailed w id := by
  cases hs with
  | arrive op hm =>
    cases eq_delete_of_apply op ho ho'
    obtain ⟨id', he, hf⟩ := h.astrayDelete _ hm
    rw [hinj he]
    exact hf
  | create id' hp hn => cases eq_delete_of_apply (.create id' (reference id')) ho ho'
  | put id' object hp => cases eq_delete_of_apply (.put (reference id') object) ho ho'
  | recoverDelete id' hp =>
    have heq := eq_delete_of_apply (.delete (reference id')) ho ho'
    rw [← hinj (ReportOp.delete.inj heq)]
    exact h.givenUp id' (by rw [hp]; rfl)
  | delete r id' path rest hp =>
    have heq := eq_delete_of_apply (.delete path) ho ho'
    rw [h.path_of_deleting hp] at heq
    rw [← hinj (ReportOp.delete.inj heq)]
    exact h.deleting r id' (by rw [hp]; rfl)
  | _ => exact absurd ho' ho

/-- **Reports and their files stay consistent**, in every run of exports and reconciliations. -/
theorem exports_consistent [DecidableEq ρ] (reference : ι → κ) (hinj : Injective reference)
    {w : ReportWorld ι κ ρ} (hr : Reachable (ReportStart reference) (ReportStep reference) w) :
    ReportSafe reference w ∧ ∀ w', ReportStep reference w w' → ReportStepSafe reference w w' := by
  have hinv : ReportInv reference w :=
    hr.invariant (fun _ h => ReportInv.start h) fun _ _ h hs => h.step hinj hs
  exact ⟨⟨hinv.created, hinv.returned⟩, fun w' hs => ⟨hs.settled, fun id => hinv.deleted hinj hs⟩⟩

end Steps

/-! ## 7. An export whose finalize goes astray -/

/-- No reports; two exports and one run may come. -/
def emptyReports : ReportWorld Bool Bool Unit := ⟨fun _ => none, fun _ => none, [], fun _ => .idle, fun _ => .idle⟩

theorem emptyReports_start : ReportStart id emptyReports :=
  ⟨nofun, nofun, rfl, fun _ => rfl, fun _ => rfl⟩

def reportFile : StoredObject := ⟨"9f86d081884c7d659a2feaa0c55ad015a3bf4f1b2b0b822cd15d6c15b0f00a08", 4⟩

/-- The export gets no answer to its finalize, which takes effect; it reads the row and returns. -/
theorem exports_consistent_of_lost_finalize :
    ∃ w : ReportWorld Bool Bool Unit, Reachable (ReportStart id) (ReportStep id) w ∧
      w.exports true = .returned ⟨some true, .CREATED, some reportFile.hashSha256⟩ ∧ ReportSafe id w := by
  let row : Report Bool := ⟨some true, .CREATED, some reportFile.hashSha256⟩
  have h0 : Reachable (ReportStart id) (ReportStep id) emptyReports := .start emptyReports_start
  have h1 := h0.next (.create true rfl rfl)
  have h2 := h1.next (.put true reportFile rfl)
  have h3 := h2.next (.finalizeLost true reportFile rfl)
  have h4 := h3.next (.arrive (.finalize true true reportFile.hashSha256) mem_cons_self)
  have h5 := h4.next (.recoverRead true reportFile rfl)
  have h6 := h5.next (.recoverConfirm true reportFile (some row) row rfl (by decide +kernel))
  exact ⟨_, h6, rfl, (exports_consistent id injective_id h6).1⟩

end AdsManagement.Reports
