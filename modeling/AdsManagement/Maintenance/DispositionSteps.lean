/-
  File:      Maintenance/DispositionSteps.lean
  Subject:   WHAT EACH TRANSACTION OF A DISPOSITION DOES, said once for every proof about runs.

  * `inspectPrismaUser_eq_some` -- a snapshot is that of the entry's row;
  * `AppUsers.update_eq_ok` -- an update that returned has written one row;
  * `applyAtomicTx_eq_ok`, `claimReinviteTx_eq_ok`, `finalizeReinviteTx_eq_ok`,
    `runBootstrapTx_eq_ok` -- a transaction that was committed;
  * `transaction_eq_ok`, `storeMutation_eq_ok` -- one that returned;
  * `moves_transaction`, `moves_request` -- what a run may change from outside.
-/
import AdsManagement.Maintenance.UserDisposition

namespace AdsManagement.Maintenance

open Common Lib List
open Users (AppRole InviteStatus)

/-! ## 1. Manifests -/

/-- An entry that passes every check. -/
structure ValidEntry (entry : AuthDispositionEntry) : Prop where
  entryId : isOpaqueId entry.entryId = true
  appUserId : isValidOpaqueId entry.appUserId = true
  providerUserId : isValidOpaqueId entry.providerUserId = true
  linkedProviderUserId : isValidOpaqueId entry.expectedLinkedProviderUserId = true
  authzVersion : ∀ version, entry.expectedAuthzVersion = some version → version ≤ maxSafeInteger
  hasAppUserId : entry.action ≠ .BOOTSTRAP_SUPER_ADMIN → entry.appUserId ≠ none
  hasAuthzVersion : entry.appUserId.isNone = entry.expectedAuthzVersion.isNone
  hasNoLink : entry.appUserId = none → entry.expectedLinkedProviderUserId = none
  hasProviderUserId : entry.action ≠ .RE_INVITE → entry.providerUserId ≠ none
  bootstrap : entry.action = .BOOTSTRAP_SUPER_ADMIN →
    entry.desiredRole = .SUPER_ADMIN ∧ entry.desiredActive = true
  disable : entry.action = .DISABLE → entry.desiredActive = false
  normalizedEmail : normalizeProviderEmail entry.normalizedEmail = .ok entry.normalizedEmail

variable {entry : AuthDispositionEntry} {seen : List String}

theorem validateEntry_eq_ok_iff :
    validateEntry seen entry = .ok () ↔ entry.entryId ∉ seen ∧ ValidEntry entry := by
  unfold validateEntry
  rw [ite_error_eq_ok, ite_error_eq_ok, ite_error_eq_ok, ite_error_eq_ok, ite_error_eq_ok,
    ite_error_eq_ok, ite_error_eq_ok, ite_error_eq_ok, ite_error_eq_ok, ite_error_eq_ok,
    ite_error_eq_ok, ite_error_eq_ok]
  constructor
  · rintro ⟨h1, h2, h3, h4, h5, h6, h7, h8, h9, h10, h11, h12, h⟩
    split at h
    · cases h
    · rename_i email he
      obtain ⟨h13, -⟩ := ite_error_eq_ok.mp h
      refine ⟨h2, by simpa using h1, by simpa using h3, by simpa using h4, by simpa using h5, ?_,
        fun ha hn => h7 ⟨ha, hn⟩, not_not.mp h8, fun hn => not_not.mp fun hl => h9 ⟨hn, hl⟩,
        fun ha hn => h10 ⟨ha, hn⟩, fun ha => ?_, fun ha => ?_, not_not.mp h13 ▸ he⟩
      · intro version hv
        rw [hv, Option.any_some, decide_eq_true_eq] at h6
        exact Nat.not_lt.mp h6
      · have := not_and.mp h11 ha
        simpa using this
      · simpa using not_and.mp h12 ha
  · rintro ⟨hseen, h⟩
    refine ⟨by simp [h.entryId], hseen, by simp [h.appUserId], by simp [h.providerUserId],
      by simp [h.linkedProviderUserId], ?_, fun hn => h.hasAppUserId hn.1 hn.2,
      not_not.mpr h.hasAuthzVersion, fun hn => hn.2 (h.hasNoLink hn.1),
      fun hn => h.hasProviderUserId hn.1 hn.2, ?_, ?_, ?_⟩
    · cases hv : entry.expectedAuthzVersion with
      | none => simp
      | some version =>
        rw [Option.any_some, decide_eq_true_eq]
        exact Nat.not_lt.mpr (h.authzVersion version hv)
    · rintro ⟨ha, hr | hd⟩
      · exact hr (h.bootstrap ha).1
      · rw [(h.bootstrap ha).2] at hd
        cases hd
    · rintro ⟨ha, hd⟩
      rw [h.disable ha] at hd
      cases hd
    · rw [h.normalizedEmail]
      exact if_neg (not_not.mpr rfl)

theorem validateEntries_eq_ok {entries : List AuthDispositionEntry}
    (h : validateEntries seen entries = .ok ()) :
    (∀ entry ∈ entries, ValidEntry entry ∧ entry.entryId ∉ seen) ∧
      (entries.map AuthDispositionEntry.entryId).Nodup := by
  induction entries generalizing seen with
  | nil => exact ⟨nofun, nodup_nil⟩
  | cons entry rest ih =>
    obtain ⟨_, hentry, hrest⟩ := bind_eq_ok.mp h
    obtain ⟨hseen, hvalid⟩ := validateEntry_eq_ok_iff.mp hentry
    obtain ⟨hall, hnodup⟩ := ih hrest
    refine ⟨forall_mem_cons.mpr ⟨⟨hvalid, hseen⟩, fun e he => ⟨(hall e he).1, fun hm =>
      (hall e he).2 (mem_cons_of_mem _ hm)⟩⟩, nodup_cons.mpr ⟨fun hm => ?_, hnodup⟩⟩
    obtain ⟨e, he, hid⟩ := mem_map.mp hm
    exact (hall e he).2 (hid ▸ mem_cons_self)

/-- A manifest that passes every check. -/
structure ValidInput (input : AuthDispositionInput) : Prop where
  entries : ∀ entry ∈ input.entries, ValidEntry entry
  entryIds : (input.entries.map AuthDispositionEntry.entryId).Nodup

variable {input : AuthDispositionInput}

theorem validInput_of_ok (h : validateDispositionInput input = .ok ()) :
    ValidInput input := by
  unfold validateDispositionInput at h
  split at h
  · cases h
  · split at h
    · cases h
    · obtain ⟨hall, hnodup⟩ := validateEntries_eq_ok h
      exact ⟨fun entry he => (hall entry he).1, hnodup⟩

theorem validInput_of_checkApply {confirmation : AuthDispositionApplyConfirmation}
    {expectedPlan : AuthDispositionPlan} (h : checkApply input confirmation expectedPlan = .ok ()) :
    ValidInput input := by
  unfold checkApply at h
  split at h
  · cases h
  · obtain ⟨_, hv, -⟩ := bind_eq_ok.mp h
    exact validInput_of_ok hv

/-! ## 2. Rows -/

namespace AppUsers

variable {users users' : AppUsers} {id : String} {row : AppUserRow}

theorem findById_eq_some (h : users.findById id = some row) : row ∈ users.rows ∧ row.id = id :=
  ⟨mem_of_find?_eq_some h, by simpa using find?_some h⟩

theorem findByEmail_eq_some {email : String} (h : users.findByEmail email = some row) :
    row ∈ users.rows ∧ row.normalizedEmail = some email :=
  ⟨mem_of_find?_eq_some h, by simpa using find?_some h⟩

theorem eq_of_id_eq {row' : AppUserRow} (h : row ∈ users.rows) (h' : row' ∈ users.rows)
    (he : row.id = row'.id) : row = row' :=
  inj_on_of_nodup_map users.constraints.ids h h' he

theorem findById_of_mem (h : row ∈ users.rows) : users.findById row.id = some row := by
  cases hf : users.findById row.id with
  | none =>
    have := find?_eq_none.mp hf row h
    simp at this
  | some found =>
    obtain ⟨hm, hid⟩ := findById_eq_some hf
    rw [eq_of_id_eq hm h hid]

theorem update_eq_ok {data : AppUserRow → AppUserRow} (h : users.update id data = .ok users') :
    ∃ row, users.findById id = some row ∧ users'.rows = replaceRow AppUserRow.id (data row) users.rows := by
  unfold update at h
  split at h
  · cases h
  · rename_i row hf
    split at h
    · cases h
      exact ⟨row, hf, rfl⟩
    · cases h

end AppUsers

/-- The snapshot of a row. -/
def snapshotOf (users : AppUsers) (row : AppUserRow) (normalizedEmail : String) : AppUserSnapshot where
  appUserId := row.id
  normalizedEmail := normalizedEmail
  providerUserId := row.authUserId
  role := row.role
  active := row.isActive
  authzVersion := row.authzVersion
  remainingEnabledSuperAdmins := enabledSuperAdminCount users

variable {s : AppUserSnapshot} {users : AppUsers}

theorem mapPrismaUser_eq_ok {row : AppUserRow}
    (h : mapPrismaUser row (enabledSuperAdminCount users) = .ok s) :
    ∃ email, row.normalizedEmail = some email ∧ s = snapshotOf users row email := by
  unfold mapPrismaUser at h
  split at h
  · cases h
  · rename_i email he
    split at h
    · cases h
    · cases h
      exact ⟨email, he, rfl⟩

/-- **A snapshot** is that of the row the entry is about. -/
theorem inspectPrismaUser_eq_some (h : inspectPrismaUser users entry = .ok (some s)) :
    ∃ row email, findEntryUser users entry = some row ∧ row ∈ users.rows ∧
      row.normalizedEmail = some email ∧ s = snapshotOf users row email := by
  have hmem : ∀ row, findEntryUser users entry = some row → row ∈ users.rows := by
    intro row hrow
    rcases Option.or_eq_some_iff.mp hrow with hid | ⟨-, he⟩
    · obtain ⟨id, -, hf⟩ := Option.bind_eq_some_iff.mp hid
      exact (AppUsers.findById_eq_some hf).1
    · exact (AppUsers.findByEmail_eq_some he).1
  have hone : ∀ row, findEntryUser users entry = some row →
      (mapPrismaUser row (enabledSuperAdminCount users)).map some = .ok (some s) →
      ∃ row email, findEntryUser users entry = some row ∧ row ∈ users.rows ∧
        row.normalizedEmail = some email ∧ s = snapshotOf users row email := by
    intro row hrow hmap
    obtain ⟨s', hs', hss⟩ := map_eq_ok.mp hmap
    cases hss
    obtain ⟨email, he, hs⟩ := mapPrismaUser_eq_ok hs'
    exact ⟨row, email, hrow, hmem row hrow, he, hs⟩
  unfold inspectPrismaUser at h
  split at h
  · rename_i byId byEmail hid he
    split at h
    · cases h
    · exact hone byId (by rw [findEntryUser, hid, Option.some_or]) h
  · next user hid he => exact hone user (by rw [findEntryUser, hid, Option.some_or]) h
  · next user hid he => exact hone user (by rw [findEntryUser, hid, he, Option.none_or]) h
  · cases h

/-! ## 3. Transactions -/

variable {action : AuthDispositionAction} {directory : Directory}
  {outcome : StoreOutcome}

variable {id : String}

theorem snapshotMatchesIdentity_some (hid : entry.appUserId = some id)
    (h : snapshotMatchesIdentity (some s) entry = true) :
    s.appUserId = id ∧ s.normalizedEmail = entry.normalizedEmail ∧
      some s.authzVersion = entry.expectedAuthzVersion ∧
      s.providerUserId = entry.expectedLinkedProviderUserId := by
  unfold snapshotMatchesIdentity at h
  rw [hid] at h
  simp only [Bool.and_eq_true, decide_eq_true_eq] at h
  exact ⟨h.1.1.1, h.1.1.2, h.1.2, h.2⟩

theorem atomicRow_id (row : AppUserRow) : (atomicRow action entry row).id = row.id := by
  unfold atomicRow
  split <;> rfl

/-- The row that a transaction found to be the one its entry expects. -/
structure ExpectedRow (entry : AuthDispositionEntry) (users : AppUsers) (row : AppUserRow) : Prop where
  mem : row ∈ users.rows
  appUserId : entry.appUserId = some row.id
  normalizedEmail : row.normalizedEmail = some entry.normalizedEmail
  authzVersion : entry.expectedAuthzVersion = some row.authzVersion
  authUserId : row.authUserId = entry.expectedLinkedProviderUserId

theorem expectedRow_of_matches (hid : entry.appUserId = some id)
    (hs : inspectPrismaUser users entry = .ok (some s)) (hm : snapshotMatchesIdentity (some s) entry = true) :
    ∃ row, ExpectedRow entry users row ∧ s = snapshotOf users row entry.normalizedEmail := by
  obtain ⟨row, email, -, hmem, he, rfl⟩ := inspectPrismaUser_eq_some hs
  obtain ⟨h1, h2, h3, h4⟩ := snapshotMatchesIdentity_some hid hm
  have h2 : email = entry.normalizedEmail := h2
  exact ⟨row, ⟨hmem, hid.trans (congrArg some h1.symm), h2 ▸ he, h3.symm, h4⟩, by rw [h2]⟩

/-- **`applyAtomic`** leaves a user that is as desired in the table alone, and else writes the row
    that the entry expects. -/
theorem applyAtomicTx_eq_ok (h : applyAtomicTx action entry directory = .ok (outcome, users)) :
    (outcome = .UNCHANGED ∧ users = directory.users ∧
      ∃ current, inspectPrismaUser directory.users entry = .ok current ∧
        isPrismaDesired current entry = true) ∨
    (outcome = .APPLIED ∧ ∃ row, ExpectedRow entry directory.users row ∧
      assertLastSuperAdminSafe directory.users
        (snapshotOf directory.users row entry.normalizedEmail) entry = .ok () ∧
      users.rows = replaceRow AppUserRow.id (atomicRow action entry row) directory.users.rows) := by
  obtain ⟨current, hc, h⟩ := bind_eq_ok.mp h
  split at h
  · rename_i hd
    cases h
    exact .inl ⟨rfl, rfl, current, hc, hd⟩
  · split at h
    · rename_i snapshot id hid _
      split at h
      · cases h
      · rename_i hm
        obtain ⟨_, hsafe, h⟩ := bind_eq_ok.mp h
        obtain ⟨updated, hu, h⟩ := bind_eq_ok.mp h
        cases h
        obtain ⟨row, hrow, rfl⟩ := expectedRow_of_matches hid hc (by simpa using hm)
        obtain ⟨found, hf, hrows⟩ := AppUsers.update_eq_ok hu
        rw [show found = row from Option.some.inj
          (hf.symm.trans (AppUsers.findById_of_mem hrow.mem))] at hrows
        exact .inr ⟨rfl, row, hrow, hsafe, hrows⟩
    · cases h

variable {requestId : String}

/-- **`claimReinvite`** finds its own claim, or writes it. -/
theorem claimReinviteTx_eq_ok (h : claimReinviteTx entry requestId directory = .ok (outcome, users)) :
    (outcome = .UNCHANGED ∧ users = directory.users ∧ isClaimed directory.users entry requestId = true) ∨
    (outcome = .APPLIED ∧ ∃ row, ExpectedRow entry directory.users row ∧
      users.rows = replaceRow AppUserRow.id (claimedRow requestId row) directory.users.rows) := by
  unfold claimReinviteTx at h
  dsimp only at h
  split at h
  · rename_i hc
    cases h
    exact .inl ⟨rfl, rfl, hc⟩
  · obtain ⟨current, hc, h⟩ := bind_eq_ok.mp h
    split at h
    · cases h
    · rename_i snapshot
      split at h
      · cases h
      · rename_i hm
        have hm : snapshotMatchesIdentity (some snapshot) entry = true := by simpa using hm
        obtain ⟨updated, hu, h⟩ := bind_eq_ok.mp h
        cases h
        cases hid : entry.appUserId with
        | none => simp [snapshotMatchesIdentity, hid] at hm
        | some id =>
          obtain ⟨row, hrow, rfl⟩ := expectedRow_of_matches hid hc hm
          obtain ⟨found, hf, hrows⟩ := AppUsers.update_eq_ok hu
          rw [show found = row from Option.some.inj
            (hf.symm.trans (AppUsers.findById_of_mem hrow.mem))] at hrows
          exact .inr ⟨rfl, row, hrow, hrows⟩

/-- **`finalizeReinvite`** finds the user invited, or writes the row that carries its claim. -/
theorem finalizeReinviteTx_eq_ok {providerUserId : String}
    (h : finalizeReinviteTx entry requestId providerUserId directory = .ok (outcome, users)) :
    ∃ row, directory.users.findById (entry.appUserId.getD "") = some row ∧
      ((outcome = .UNCHANGED ∧ users = directory.users ∧ row.inviteStatus = .INVITED) ∨
        (outcome = .APPLIED ∧ row.invitationRequestId = some requestId ∧
          users.rows = replaceRow AppUserRow.id (finalizedRow entry providerUserId row)
            directory.users.rows)) := by
  unfold finalizeReinviteTx at h
  dsimp only at h
  split at h
  · cases h
  · rename_i row hf
    refine ⟨row, hf, ?_⟩
    split at h
    · rename_i hi
      cases h
      exact .inl ⟨rfl, rfl, hi.2⟩
    · split at h
      · cases h
      · rename_i hr
        obtain ⟨updated, hu, h⟩ := bind_eq_ok.mp h
        obtain ⟨-, -, h⟩ := bind_eq_ok.mp h
        cases h
        obtain ⟨found, hfound, hrows⟩ := AppUsers.update_eq_ok hu
        have hmem := (AppUsers.findById_eq_some hf).1
        rw [show found = row from Option.some.inj
          (hfound.symm.trans (AppUsers.findById_of_mem hmem))] at hrows
        exact .inr ⟨rfl, not_not.mp hr, hrows⟩

/-- **`runBootstrapSuperAdmin`** leaves a super administrator that is enabled. -/
theorem runBootstrapTx_eq_ok {service : BootstrapService}
    (h : runBootstrapTx service entry directory = .ok (outcome, users)) :
    ∃ row ∈ users.rows, isEnabledSuperAdmin row = true := by
  obtain ⟨before, -, h⟩ := bind_eq_ok.mp h
  split at h
  · cases h
  · split at h
    · cases h
    · obtain ⟨⟨changed, users'⟩, -, h⟩ := bind_eq_ok.mp h
      dsimp only at h
      split at h
      · cases h
      · rename_i afterRow hf
        split at h
        · cases h
        · rename_i he
          obtain ⟨-, -, h⟩ := bind_eq_ok.mp h
          cases h
          exact ⟨afterRow, mem_of_find?_eq_some hf, by simpa using he⟩

/-! ## 4. Calls -/

variable {α : Type} {w w' : Remote String DispositionWorld}

/-- The world after a transaction. -/
def DispositionWorld.commit (operation : StoreOperation) (entry : AuthDispositionEntry) (users : AppUsers)
    (w : DispositionWorld) : DispositionWorld :=
  { w with
    directory := { w.directory with users }
    commits := w.commits ++ [⟨operation, entry, w.directory.users, users⟩] }

variable {body : Directory → Except String (StoreOutcome × AppUsers)} {operation : StoreOperation}
  {deps : AuthDispositionDependencies} {command : AuthAtomicCommand}

theorem transaction_eq_ok (h : exec (transaction deps operation command body) w = (.ok outcome, w')) :
    ∃ users, body w.state.directory = .ok (outcome, users) ∧
      w'.state = w.state.commit operation command.entry users := by
  have hc := call_eq_ok h
  split at hc
  · cases hc
  · rename_i o users hb
    obtain ⟨ho, hs⟩ := Prod.mk.inj hc
    cases ho
    obtain ⟨_, -, hb⟩ := bind_eq_ok.mp hb
    exact ⟨users, hb, hs.symm⟩

/-- A transaction that returned has had its locks. -/
theorem locked_of_transaction (h : exec (transaction deps operation command body) w = (.ok outcome, w')) :
    lockAuthCommand deps command = .ok () := by
  have hc := call_eq_ok h
  split at hc
  · cases hc
  · rename_i o users hb
    exact (bind_eq_ok.mp hb).choose_spec.1

/-- The command of an entry has keys to lock. -/
theorem lockAuthCommand_entryCommand {refreshed : AuthDispositionPlan} :
    lockAuthCommand deps (entryCommand deps refreshed entry) = .ok () ↔ deps.ReadsVoid := by
  unfold lockAuthCommand AuthDispositionDependencies.ReadsVoid
  cases deps.voidColumn with
  | error e => exact ⟨nofun, nofun⟩
  | ok u => exact ⟨fun _ => rfl, fun _ => rfl⟩

variable {m : DispositionM α}

theorem tryCatch_throw_eq_ok {f : String → String} {a : α} :
    exec (tryCatch m fun message => throw (f message)) w = (.ok a, w') ↔ exec m w = (.ok a, w') := by
  rw [exec_tryCatch]
  rcases exec m w with ⟨e | a', v⟩
  · exact ⟨nofun, nofun⟩
  · exact Iff.rfl

theorem storeMutation_eq_ok {operation : DispositionM StoreOutcome} {code : String}
    {counted : DispositionOutcome} (h : exec (storeMutation operation code) w = (.ok counted, w')) :
    ∃ outcome, exec operation w = (.ok outcome, w') ∧
      counted = if outcome = .APPLIED then .applied else .unchanged := by
  obtain ⟨outcome, v, ho, hr⟩ := exec_bind_eq_ok.mp h
  cases hr
  exact ⟨outcome, tryCatch_throw_eq_ok.mp ho, rfl⟩

section Moves

variable {r : DispositionWorld → DispositionWorld → Prop}

theorem moves_request [IsPreorder DispositionWorld r] {operation : Identities → Except String α × Identities}
    (h : ∀ (w : DispositionWorld) (identities : Identities),
      identities = (operation w.directory.identities).2 →
        r w { w with directory := { w.directory with identities } }) :
    Moves r (request operation) :=
  moves_call fun w => h w _ rfl

theorem moves_transaction [IsPreorder DispositionWorld r]
    (h : lockAuthCommand deps command = .ok () → ∀ (w : DispositionWorld) outcome users,
      body w.directory = .ok (outcome, users) → r w (w.commit operation command.entry users)) :
    Moves r (transaction deps operation command body) := by
  refine moves_call fun w => ?_
  cases hb : (do lockAuthCommand deps command; body w.directory) with
  | error e => exact refl_of r _
  | ok result =>
    obtain ⟨_, hlock, hb⟩ := bind_eq_ok.mp hb
    exact h hlock w _ _ hb

variable [IsPreorder DispositionWorld r]

theorem moves_safeStoreCall (h : Moves r m) (code : String) :
    Moves r (safeStoreCall m code) :=
  h.tryCatch fun _ => moves_throw _

theorem moves_storeMutation {m : DispositionM StoreOutcome} (h : Moves r m) (code : String) :
    Moves r (storeMutation m code) :=
  (moves_safeStoreCall h code).bind fun _ => moves_pure _

theorem moves_liftExcept (x : Except String α) : Moves r (liftExcept x) := by
  cases x with
  | error e => exact moves_throw e
  | ok a => exact moves_pure a

theorem moves_recordPartial
    (h : ∀ (w : DispositionWorld) journal, r w { w with journal })
    (command : AuthAtomicCommand) (plan : AuthDispositionPlan) (state : PartialState)
    (compensation : Compensation) (code : String) :
    Moves r (recordPartial command plan state compensation code) :=
  moves_safeStoreCall (moves_call fun w => h w _) _

end Moves

/-! ## 5. Planning changes nothing -/

theorem moves_inspectSnapshot (entry : AuthDispositionEntry) : Moves Eq (inspectSnapshot entry) := by
  refine (moves_safeStoreCall (moves_query _) _).bind fun raw => ?_
  cases raw with
  | none => exact moves_pure _
  | some snapshot =>
    dsimp only
    split
    · exact moves_throw _
    · exact moves_pure _

theorem moves_inspectEntry (entry : AuthDispositionEntry) : Moves Eq (inspectEntry entry) := by
  have hid : Moves Eq (inspectIdentityById entry) := by
    unfold inspectIdentityById
    split
    · exact moves_pure _
    · exact (moves_query _).tryCatch fun _ => moves_throw _
  exact (moves_inspectSnapshot entry).bind fun _ => hid.bind fun _ =>
    ((moves_query _).tryCatch fun _ => moves_throw _).bind fun _ => moves_pure _

theorem moves_inspectEntries (entries : List AuthDispositionEntry) : Moves Eq (inspectEntries entries) := by
  induction entries with
  | nil => exact moves_pure _
  | cons entry rest ih => exact (moves_inspectEntry entry).bind fun _ => ih.bind fun _ => moves_pure _

theorem moves_planAuthDisposition (deps : AuthDispositionDependencies) (input : AuthDispositionInput) :
    Moves Eq (planAuthDisposition deps input) := by
  unfold planAuthDisposition
  split
  · exact moves_throw _
  · refine Moves.ite (moves_throw _) (Moves.ite (moves_throw _) ?_)
    exact (moves_inspectEntries input.entries).bind fun _ => moves_pure _

variable {r : DispositionWorld → DispositionWorld → Prop}

/-- A turn leads where a transaction, a request and an entry of the journal lead. -/
theorem moves_applyEntry [IsPreorder DispositionWorld r]
    (hcommit : deps.ReadsVoid → ∀ (w : DispositionWorld) operation entry users,
      r w (w.commit operation entry users))
    (hrequest : ∀ (w : DispositionWorld) identities,
      r w { w with directory := { w.directory with identities } })
    (hjournal : ∀ (w : DispositionWorld) journal, r w { w with journal })
    (input : AuthDispositionInput) (refreshed : AuthDispositionPlan)
    (plannedEntry : AuthDispositionPlanEntry) : Moves r (applyEntry deps input refreshed plannedEntry) := by
  have htx : ∀ operation entry body,
      Moves r (transaction deps operation (entryCommand deps refreshed entry) body) :=
    fun _ _ _ => moves_transaction fun hlock w _ _ _ =>
      hcommit (lockAuthCommand_entryCommand.mp hlock) w _ _ _
  have hreq : ∀ {α : Type} (operation : Identities → Except String α × Identities),
      Moves r (request operation) :=
    fun _ => moves_request fun w identities _ => hrequest w identities
  have hpart : ∀ command plan state compensation code,
      Moves r (recordPartial command plan state compensation code) :=
    moves_recordPartial hjournal
  refine Moves.ite (moves_pure _) ?_
  split
  · exact moves_throw _
  · split
    · split
      · exact moves_throw _
      · exact moves_storeMutation (.ite (moves_throw _) (htx _ _ _)) _
    · exact moves_storeMutation (.ite (moves_throw _) (htx _ _ _)) _
    · refine (moves_storeMutation (.ite (moves_throw _) (htx _ _ _)) _).bind fun claim => ?_
      refine .ite (moves_pure _) (Moves.bind ?_ fun invite => ?_)
      · exact ((hreq _).bind fun _ => moves_pure _).tryCatch fun _ => moves_pure _
      · split
        · exact (hpart _ _ _ _ _).bind fun _ => moves_pure _
        · refine ((moves_storeMutation (htx _ _ _) _).bind fun _ => moves_pure _).tryCatch fun _ => ?_
          refine Moves.bind ?_ fun _ => (hpart _ _ _ _ _).bind fun _ => moves_pure _
          exact ((hreq _).bind fun _ => moves_pure _).tryCatch fun _ => moves_pure _
    · refine (moves_storeMutation (.ite (moves_throw _) (htx _ _ _)) _).bind fun stored => ?_
      refine .ite (moves_pure _) ?_
      split
      · exact moves_throw _
      · exact ((hreq _).bind fun _ => moves_pure _).tryCatch fun _ =>
          (hpart _ _ _ _ _).bind fun _ => moves_pure _
    · exact moves_pure _

/-- **A run** leads where its turns lead. -/
theorem moves_applyAuthDisposition [IsPreorder DispositionWorld r] {deps : AuthDispositionDependencies}
    (hturn : ValidInput input → ∀ refreshed plannedEntry,
      Moves r (applyEntry deps input refreshed plannedEntry))
    (hreport : ∀ (w : DispositionWorld) reports, r w { w with reports })
    (confirmation : AuthDispositionApplyConfirmation) (expectedPlan : AuthDispositionPlan) :
    Moves r (applyAuthDisposition deps input confirmation expectedPlan) := by
  unfold applyAuthDisposition
  cases hcheck : checkApply input confirmation expectedPlan with
  | error e => exact fun w => refl_of r w.state
  | ok u =>
    have hturn := hturn (validInput_of_checkApply hcheck)
    have hselected : ∀ refreshed atPlan selected,
        Moves r (applySelected deps input refreshed atPlan selected) := by
      intro refreshed atPlan selected
      induction selected with
      | nil => exact moves_pure _
      | cons plannedEntry rest ih =>
        refine (moves_observe _).bind fun before => (hturn _ _).bind fun outcome => ?_
        refine (moves_note fun w => ?_).bind fun _ => ih.bind fun _ => moves_pure _
        unfold addReport
        split
        · exact refl_of r _
        · exact hreport _ _
    refine (moves_pure _).bind fun _ => ?_
    refine ((moves_planAuthDisposition deps input).mono fun s s' h => h ▸ refl_of r s).bind
      fun refreshed => ?_
    exact (moves_liftExcept _).bind fun _ => (moves_observe _).bind fun _ =>
      (hselected _ _ _).bind fun _ => moves_pure _

end AdsManagement.Maintenance
