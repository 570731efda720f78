/-
  File:      Maintenance/DispositionOutcomes.lean
  Subject:   WHAT A DISPOSITION REPORTS: where an entry that a run counts as applied or unchanged
             has brought both sides to the state it desires.

  A turn that writes the table and gets its answer from the provider has done so. A turn that does
  nothing relies on what it sees: the plan of before, a user who is inactive already, a claim that
  is there already; and a LINK never asks for the identity it names.

  * `BothDesired` -- the user and the identity are as the entry desires;
  * `Report.Grounded` -- what a turn has to find for its outcome to be true;
  * `IsTurn`, `reports_are_turns` -- the reports of a run are its turns;
  * `reported_outcome_true` -- over any sequence of runs.
-/
import AdsManagement.Maintenance.DispositionAdmins

namespace AdsManagement.Maintenance

open Common Lib List
open Users (AppRole InviteStatus)

/-! ## 1. What an entry desires -/

/-- The identity an entry is about: that of its id, or else that of its address. -/
def findEntryIdentity (identities : Identities) (entry : AuthDispositionEntry) : Option ProviderIdentity :=
  (entry.providerUserId.bind identities.find).or
    (identities.rows.find? (hasEmail entry.normalizedEmail))

/-- The user of an entry is as desired, and so is the identity: for DISABLE it is disabled, and
    else the user is linked to an identity of the entry's address. -/
def BothDesired (entry : AuthDispositionEntry) (directory : Directory) : Prop :=
  ∃ row, findEntryUser directory.users entry = some row ∧ row.normalizedEmail = some entry.normalizedEmail ∧
    if entry.action = .DISABLE then
      row.isActive = false ∧ ∃ identity, findEntryIdentity directory.identities entry = some identity ∧
        identity.disabled = true
    else row.role = entry.desiredRole ∧ row.isActive = entry.desiredActive ∧
      ∃ identity ∈ directory.identities.rows, row.authUserId = some identity.id ∧
        hasEmail entry.normalizedEmail identity = true

/-- What a plan reads of the user and of the identity. -/
def seen (entry : AuthDispositionEntry) (directory : Directory) :
    Option (Option String × AppRole × Bool × Option String) × Option (String × Option String × Bool) :=
  ((findEntryUser directory.users entry).map fun row =>
      (row.normalizedEmail, row.role, row.isActive, row.authUserId),
    (findEntryIdentity directory.identities entry).map fun identity =>
      (identity.id, identity.email, identity.disabled))

variable {identities : Identities}

theorem mem_of_findEntryIdentity {entry : AuthDispositionEntry} {identity : ProviderIdentity}
    (h : findEntryIdentity identities entry = some identity) :
    identity ∈ identities.rows := by
  rcases Option.or_eq_some_iff.mp h with hid | ⟨-, he⟩
  · obtain ⟨id, -, hf⟩ := Option.bind_eq_some_iff.mp hid
    exact (Identities.find_eq_some hf).1
  · exact mem_of_find?_eq_some he

theorem hasEmail_congr {email : String} {identity identity' : ProviderIdentity}
    (h : identity.email = identity'.email) : hasEmail email identity = hasEmail email identity' := by
  unfold hasEmail isExactEmail
  rw [h]

/-- An identity but for its ban. -/
def eraseBan (identity : ProviderIdentity) : ProviderIdentity := { identity with disabled := false }

/-- The identities are the same but for their bans. -/
def SameButBans (identities identities' : Identities) : Prop :=
  identities'.rows.map eraseBan = identities.rows.map eraseBan

/-! ## 2. The plan -/

variable {entry : AuthDispositionEntry} {directory : Directory} {snapshot : Option AppUserSnapshot}
  {byId byEmail : Option AuthProviderUser}

/-- What an inspection has found. -/
structure Inspected (entry : AuthDispositionEntry) (directory : Directory)
    (snapshot : Option AppUserSnapshot) (byId byEmail : Option AuthProviderUser) : Prop where
  snapshot : inspectPrismaUser directory.users entry = .ok snapshot
  byId : (entry.providerUserId = none ∧ byId = none) ∨ ∃ userId, entry.providerUserId = some userId ∧
    findUserById directory.identities userId = .ok byId
  byEmail : findUserByEmail directory.identities entry.normalizedEmail = .ok byEmail

/-- The plan of an entry on what is there. -/
def PlannedAt (directory : Directory) (entry : AuthDispositionEntry)
    (plannedEntry : AuthDispositionPlanEntry) : Prop :=
  ∃ snapshot byId byEmail, Inspected entry directory snapshot byId byEmail ∧
    plannedEntry = assess entry snapshot byId byEmail

theorem validateSnapshot_eq_ok {s s' : AppUserSnapshot} (h : validateSnapshot s = .ok s') : s' = s := by
  obtain ⟨-, h⟩ := ite_error_eq_ok.mp h
  split at h
  · cases h
  · obtain ⟨-, h⟩ := ite_error_eq_ok.mp h
    cases h
    rfl

variable {w' w : Remote String DispositionWorld}
variable {α : Type}

theorem redactProviderError_eq_ok {f : DispositionWorld → Except String α} {a : α}
    (h : exec (redactProviderError (query f)) w = (.ok a, w')) : f w.state = .ok a ∧ w'.state = w.state :=
  query_eq_ok (tryCatch_throw_eq_ok.mp h)

theorem inspectSnapshot_eq_ok (h : exec (inspectSnapshot entry) w = (.ok snapshot, w')) :
    inspectPrismaUser w.state.directory.users entry = .ok snapshot ∧ w'.state = w.state := by
  obtain ⟨raw, v, hraw, h⟩ := exec_bind_eq_ok.mp h
  obtain ⟨hinspect, hv⟩ := query_eq_ok (tryCatch_throw_eq_ok.mp hraw)
  cases raw with
  | none =>
    cases h
    exact ⟨hinspect, hv⟩
  | some s =>
    dsimp only at h
    split at h
    · cases h
    · rename_i s' hs
      cases h
      rw [validateSnapshot_eq_ok hs]
      exact ⟨hinspect, hv⟩

variable {plannedEntry : AuthDispositionPlanEntry}

/-- **An inspection that returned** has planned on what is there. -/
theorem inspectEntry_eq_ok (h : exec (inspectEntry entry) w = (.ok plannedEntry, w')) :
    PlannedAt w.state.directory entry plannedEntry := by
  obtain ⟨snapshot, v, hs, h⟩ := exec_bind_eq_ok.mp h
  obtain ⟨hsnapshot, hv⟩ := inspectSnapshot_eq_ok hs
  obtain ⟨byId, u, hid, h⟩ := exec_bind_eq_ok.mp h
  obtain ⟨byEmail, t, hemail, h⟩ := exec_bind_eq_ok.mp h
  cases h
  have hbyId : ((entry.providerUserId = none ∧ byId = none) ∨ ∃ userId, entry.providerUserId = some userId ∧
      findUserById w.state.directory.identities userId = .ok byId) ∧ u.state = w.state := by
    unfold inspectIdentityById at hid
    split at hid
    · rename_i hn
      cases hid
      exact ⟨.inl ⟨hn, rfl⟩, hv⟩
    · rename_i userId hn
      obtain ⟨hf, hu⟩ := redactProviderError_eq_ok hid
      rw [hv] at hf hu
      exact ⟨.inr ⟨userId, hn, hf⟩, hu⟩
  obtain ⟨hf, -⟩ := redactProviderError_eq_ok hemail
  rw [hbyId.2] at hf
  exact ⟨snapshot, byId, byEmail, ⟨hsnapshot, hbyId.1, hf⟩, rfl⟩

theorem inspectEntries_eq_ok {entries : List AuthDispositionEntry}
    {plannedEntries : List AuthDispositionPlanEntry}
    (h : exec (inspectEntries entries) w = (.ok plannedEntries, w')) :
    ∀ plannedEntry ∈ plannedEntries, ∃ entry ∈ entries,
      PlannedAt w.state.directory entry plannedEntry := by
  induction entries generalizing w w' plannedEntries with
  | nil =>
    cases h
    exact nofun
  | cons entry rest ih =>
    obtain ⟨first, v, hfirst, h⟩ := exec_bind_eq_ok.mp h
    obtain ⟨others, u, hothers, h⟩ := exec_bind_eq_ok.mp h
    cases h
    have hv : w.state = v.state := by
      have hm : w.state = (exec (inspectEntry entry) w).2.state := moves_inspectEntry entry w
      rwa [hfirst] at hm
    refine forall_mem_cons.mpr ⟨⟨entry, mem_cons_self, inspectEntry_eq_ok hfirst⟩, ?_⟩
    intro plannedEntry hp
    obtain ⟨e, he, hpl⟩ := ih hothers plannedEntry hp
    exact ⟨e, mem_cons_of_mem _ he, hv ▸ hpl⟩

/-- The identity of an inspection is that of the entry. -/
theorem Inspected.identity (h : Inspected entry directory snapshot byId byEmail)
    (hn : normalizeProviderEmail entry.normalizedEmail = .ok entry.normalizedEmail) :
    (byId.or byEmail = none ∧ findEntryIdentity directory.identities entry = none) ∨
      ∃ identity user, byId.or byEmail = some user ∧
        findEntryIdentity directory.identities entry = some identity ∧
        mapSupabaseUser identity = .ok user := by
  have hbyId : (byId = none ∧ entry.providerUserId.bind directory.identities.find = none) ∨
      ∃ identity user, byId = some user ∧
        entry.providerUserId.bind directory.identities.find = some identity ∧
        mapSupabaseUser identity = .ok user := by
    rcases h.byId with ⟨hp, rfl⟩ | ⟨userId, hp, hf⟩
    · exact .inl ⟨rfl, by rw [hp]; rfl⟩
    · rw [hp]
      exact findUserById_eq_ok hf
  have hbyEmail := h.byEmail
  rw [findUserByEmail_eq hn] at hbyEmail
  unfold findEntryIdentity
  rcases hbyId with ⟨rfl, hid⟩ | ⟨identity, user, rfl, hid, hmap⟩
  · rw [hid, Option.none_or, Option.none_or]
    exact findExactEmail_eq_ok hbyEmail
  · rw [hid]
    exact .inr ⟨identity, user, rfl, rfl, hmap⟩

theorem assess_entryId : (assess entry snapshot byId byEmail).entryId = entry.entryId ∧
    (assess entry snapshot byId byEmail).action = entry.action := by
  unfold assess
  dsimp only
  split_ifs <;> exact ⟨rfl, rfl⟩

variable {code : String}

/-- A check that blocks. -/
theorem ite_blocked {p : Prop} [Decidable p] {x : AuthDispositionPlanEntry} (outcome : PlannedOutcome)
    (hne : outcome ≠ .BLOCKED) :
    (if p then planned entry .BLOCKED code else x).outcome = outcome ↔ ¬ p ∧ x.outcome = outcome := by
  by_cases hp : p
  · rw [if_pos hp]
    exact ⟨fun h => absurd h.symm hne, fun h => absurd hp h.1⟩
  · rw [if_neg hp]
    exact ⟨fun h => ⟨hp, h⟩, fun h => h.2⟩

theorem ite_desired {code' : String} {outcome : PlannedOutcome}
    (h : (if isDesiredState snapshot (byId.or byEmail) entry = true then planned entry .UNCHANGED code
      else planned entry outcome code').outcome = .UNCHANGED) (hne : outcome ≠ .UNCHANGED) :
    isDesiredState snapshot (byId.or byEmail) entry = true := by
  split at h
  · next hd => exact hd
  · exact absurd h hne

/-- What is planned as UNCHANGED is as desired. -/
theorem assess_unchanged (h : (assess entry snapshot byId byEmail).outcome = .UNCHANGED)
    (hk : entry.action ≠ .KEEP) :
    isDesiredState snapshot (byId.or byEmail) entry = true ∧
      ∀ user, byId.or byEmail = some user → user.email = entry.normalizedEmail := by
  unfold assess at h
  obtain ⟨-, h⟩ := (ite_blocked .UNCHANGED nofun).mp h
  obtain ⟨hemail, h⟩ := (ite_blocked .UNCHANGED nofun).mp h
  obtain ⟨-, h⟩ := (ite_blocked .UNCHANGED nofun).mp h
  obtain ⟨-, h⟩ := (ite_blocked .UNCHANGED nofun).mp h
  rw [if_neg hk] at h
  refine ⟨?_, fun user hu => ?_⟩
  · split at h
    · exact ite_desired h nofun
    · split at h
      · split at h
        · cases h
        · exact ite_desired h nofun
      · obtain ⟨-, h⟩ := (ite_blocked .UNCHANGED nofun).mp h
        obtain ⟨-, h⟩ := (ite_blocked .UNCHANGED nofun).mp h
        exact ite_desired h nofun
  · rw [hu] at hemail
    simpa using hemail

variable {atPlan : Directory}

/-- **What was planned as UNCHANGED** is as desired as long as it is seen as it was. -/
theorem bothDesired_of_planned (hvalid : ValidEntry entry) (hk : entry.action ≠ .KEEP)
    (hp : PlannedAt atPlan entry plannedEntry) (hu : plannedEntry.outcome = .UNCHANGED)
    (hseen : seen entry directory = seen entry atPlan) :
    BothDesired entry directory := by
  obtain ⟨snapshot, byId, byEmail, hi, rfl⟩ := hp
  obtain ⟨hdesired, hemail⟩ := assess_unchanged hu hk
  obtain ⟨hseenUser, hseenIdentity⟩ := Prod.mk.inj hseen
  cases snapshot with
  | none => cases hdesired
  | some s =>
    obtain ⟨row, email, hrow, -, he, rfl⟩ := inspectPrismaUser_eq_some hi.snapshot
    obtain ⟨hcolumns, hside⟩ := Bool.and_eq_true_iff.mp hdesired
    simp only [Bool.and_eq_true, decide_eq_true_eq] at hcolumns
    obtain ⟨⟨heq, hrole⟩, hactive⟩ := hcolumns
    rw [hrow] at hseenUser
    obtain ⟨row', hrow', hsame⟩ := Option.map_eq_some_iff.mp hseenUser
    simp only [Prod.mk.injEq] at hsame
    obtain ⟨hemail', hrole', hactive', hlink'⟩ := hsame
    refine ⟨row', hrow', hemail'.trans (he.trans (congrArg some heq)), ?_⟩
    rcases hi.identity hvalid.normalizedEmail with ⟨hnone, -⟩ | ⟨identity, user, hsome, hfound, hmap⟩
    · -- without an identity nothing is as desired
      rw [hnone] at hside
      split at hside
      · cases hside
      · next hkeep => exact absurd hkeep hk
      · cases hside
    · obtain ⟨-, hid, -, hdis, hhas⟩ := mapSupabaseUser_eq_ok hmap
      rw [hemail user hsome] at hhas
      rw [hfound] at hseenIdentity
      obtain ⟨identity', hfound', hsame⟩ := Option.map_eq_some_iff.mp hseenIdentity
      simp only [Prod.mk.injEq] at hsame
      obtain ⟨hid', haddress', hdis'⟩ := hsame
      rw [hsome] at hside
      split at hside
      · rename_i hd
        rw [if_pos hd]
        exact ⟨hactive'.trans (hactive.trans (hvalid.disable hd)), identity', hfound',
          hdis'.trans (hdis ▸ hside)⟩
      · next hkeep => exact absurd hkeep hk
      · rename_i hd _
        have hlink : row.authUserId = some user.id := of_decide_eq_true hside
        rw [if_neg hd]
        exact ⟨hrole'.trans hrole, hactive'.trans hactive, identity', mem_of_findEntryIdentity hfound',
          hlink'.trans (hlink.trans (by rw [hid, hid'])), (hasEmail_congr haddress').trans hhas⟩

/-! ## 3. Turns -/

/-- **What a turn has to find.** One that the plan has counted finds what the plan saw; one that
    meets an inactive user finds the identity disabled; a LINK finds the identity it names; and an
    invitation is not claimed yet. -/
def Report.Grounded (r : Report) : Prop :=
  if r.planned = .UNCHANGED then seen r.entry r.before = seen r.entry r.atPlan
  else
    match r.entry.action with
    | .DISABLE =>
      (∃ row, findEntryUser r.before.users r.entry = some row ∧ row.role = r.entry.desiredRole ∧
        row.isActive = false) →
        ∃ identity, findEntryIdentity r.before.identities r.entry = some identity ∧ identity.disabled = true
    | .LINK =>
      ∃ identity ∈ r.before.identities.rows, r.entry.providerUserId = some identity.id ∧
        hasEmail r.entry.normalizedEmail identity = true
    | .RE_INVITE => isClaimed r.before.users r.entry r.requestId = false
    | _ => True

variable {deps : AuthDispositionDependencies} {command : AuthAtomicCommand} {plan : AuthDispositionPlan} {outcome : DispositionOutcome}

variable {users : AppUsers} {row : AppUserRow}
variable {users' : AppUsers} {row' : AppUserRow}

/-- A row that was written is the one of its id. -/
theorem findById_of_replaced (hmem : row ∈ users.rows) (hid : row'.id = row.id)
    (hrows : users'.rows = replaceRow AppUserRow.id row' users.rows) :
    users'.findById row.id = some row' := by
  have h : row' ∈ users'.rows := hrows ▸ mem_replaceRow_self hmem hid.symm
  rw [← hid]
  exact AppUsers.findById_of_mem h

theorem findEntryUser_of_replaced (hmem : row ∈ users.rows) (hentry : entry.appUserId = some row.id)
    (hid : row'.id = row.id) (hrows : users'.rows = replaceRow AppUserRow.id row' users.rows) :
    findEntryUser users' entry = some row' := by
  unfold findEntryUser
  rw [hentry, Option.bind_some, findById_of_replaced hmem hid hrows, Option.some_or]

/-- What an `applyAtomic` that returned has left. -/
theorem applyAtomic_eq_ok (h : exec (storeMutation (applyAtomic deps command) code) w = (.ok outcome, w')) :
    w'.state.directory.identities = w.state.directory.identities ∧
    ((outcome = .unchanged ∧ w'.state.directory.users = w.state.directory.users ∧
        ∃ row, findEntryUser w.state.directory.users command.entry = some row ∧
          row.normalizedEmail = some command.entry.normalizedEmail ∧
          isPrismaDesired (some (snapshotOf w.state.directory.users row command.entry.normalizedEmail))
            command.entry = true) ∨
      (outcome = .applied ∧ ∃ row, ExpectedRow command.entry w.state.directory.users row ∧
        w'.state.directory.users.rows =
          replaceRow AppUserRow.id (atomicRow command.action command.entry row)
            w.state.directory.users.rows)) := by
  obtain ⟨stored, ho, rfl⟩ := storeMutation_eq_ok h
  unfold applyAtomic at ho
  split at ho
  · cases ho
  · obtain ⟨users, hb, hs⟩ := transaction_eq_ok ho
    rw [hs]
    refine ⟨rfl, ?_⟩
    rcases applyAtomicTx_eq_ok hb with ⟨rfl, rfl, current, hc, hd⟩ | ⟨rfl, row, hrow, -, hrows⟩
    · refine .inl ⟨rfl, rfl, ?_⟩
      cases current with
      | none => cases hd
      | some s =>
        obtain ⟨row, email, hrow, -, he, rfl⟩ := inspectPrismaUser_eq_some hc
        have heq : email = command.entry.normalizedEmail := by
          simp only [isPrismaDesired, Option.any_some, Bool.and_eq_true, decide_eq_true_eq] at hd
          exact hd.1.1.1
        exact ⟨row, hrow, heq ▸ he, heq ▸ hd⟩
    · exact .inr ⟨rfl, row, hrow, hrows⟩

theorem isPrismaDesired_iff :
    isPrismaDesired (some (snapshotOf users row entry.normalizedEmail)) entry = true ↔
      row.role = entry.desiredRole ∧ row.isActive = entry.desiredActive ∧
        if entry.action = .DISABLE then row.isActive = false
        else row.authUserId = entry.providerUserId := by
  unfold isPrismaDesired snapshotOf
  split <;> simp [and_assoc]

/-- **A LINK** that returned has brought both sides together, where the identity is there. -/
theorem bothDesired_of_link (hc : command.action = command.entry.action) (ha : command.entry.action = .LINK)
    (h : exec (storeMutation (applyAtomic deps command) code) w = (.ok outcome, w'))
    (hground : ∃ identity ∈ w.state.directory.identities.rows,
      command.entry.providerUserId = some identity.id ∧
        hasEmail command.entry.normalizedEmail identity = true) :
    BothDesired command.entry w'.state.directory := by
  obtain ⟨identity, hmem, hid, hhas⟩ := hground
  have hnd : command.entry.action ≠ .DISABLE := by rw [ha]; nofun
  obtain ⟨hidentities, ⟨-, husers, row, hrow, he, hd⟩ | ⟨-, row, hrow, hrows⟩⟩ := applyAtomic_eq_ok h
  · obtain ⟨hrole, hactive, hlink⟩ := isPrismaDesired_iff.mp hd
    rw [if_neg hnd] at hlink
    refine ⟨row, by rw [husers]; exact hrow, he, ?_⟩
    rw [if_neg hnd, hidentities]
    exact ⟨hrole, hactive, identity, hmem, hlink.trans hid, hhas⟩
  · refine ⟨_, findEntryUser_of_replaced hrow.mem hrow.appUserId (atomicRow_id row) hrows, ?_, ?_⟩
    · rw [atomicRow, if_neg (hc ▸ hnd)]
    · rw [if_neg hnd, atomicRow, if_neg (hc ▸ hnd), hidentities]
      exact ⟨rfl, rfl, identity, hmem, hid, hhas⟩

/-- The identity that a request by id has disabled is the entry's. -/
theorem findEntryIdentity_of_find {identity : ProviderIdentity} {userId : String}
    (hp : entry.providerUserId = some userId) (hf : identities.find userId = some identity) :
    findEntryIdentity identities entry = some identity := by
  unfold findEntryIdentity
  rw [hp, Option.bind_some, hf, Option.some_or]

theorem request_eq_ok {operation : Identities → Except String α × Identities} {a : α}
    (h : exec (request operation) w = (.ok a, w')) :
    operation w.state.directory.identities = (.ok a, w'.state.directory.identities) ∧
      w'.state.directory.users = w.state.directory.users := by
  have hc := call_eq_ok h
  obtain ⟨ha, hs⟩ := Prod.mk.inj hc
  rw [← hs]
  exact ⟨Prod.ext ha rfl, rfl⟩

/-- **A DISABLE** that was counted as applied or unchanged. -/
theorem bothDesired_of_disable (hc : command.action = command.entry.action)
    (ha : command.entry.action = .DISABLE)
    (h : exec (applyDisable deps command plan) w = (.ok outcome, w')) (hne : outcome ≠ .partially)
    (hground : (∃ row, findEntryUser w.state.directory.users command.entry = some row ∧
        row.role = command.entry.desiredRole ∧ row.isActive = false) →
      ∃ identity, findEntryIdentity w.state.directory.identities command.entry = some identity ∧
        identity.disabled = true) :
    BothDesired command.entry w'.state.directory := by
  obtain ⟨stored, v, hstored, h⟩ := exec_bind_eq_ok.mp h
  obtain ⟨hidentities, ⟨rfl, husers, row, hrow, he, hd⟩ | ⟨rfl, row, hrow, hrows⟩⟩ := applyAtomic_eq_ok hstored
  · cases h
    obtain ⟨hrole, -, hinactive⟩ := isPrismaDesired_iff.mp hd
    rw [if_pos ha] at hinactive
    refine ⟨row, by rw [husers]; exact hrow, he, ?_⟩
    rw [if_pos ha, hidentities]
    exact ⟨hinactive, hground ⟨row, hrow, hrole, hinactive⟩⟩
  · rw [if_neg nofun] at h
    split at h
    · cases h
    · rename_i userId hp
      rw [exec_tryCatch] at h
      rcases hreq : exec (do
        let _ ← request (setUserDisabled userId true)
        return DispositionOutcome.applied) v with ⟨e | counted, u⟩
      · rw [hreq] at h
        obtain ⟨-, u', -, h⟩ := exec_bind_eq_ok.mp h
        cases h
        exact absurd rfl hne
      · rw [hreq] at h
        cases h
        obtain ⟨returned, u', hrequest, h⟩ := exec_bind_eq_ok.mp hreq
        cases h
        obtain ⟨hset, husers⟩ := request_eq_ok hrequest
        obtain ⟨identity, hfind, hdisabled⟩ := setUserDisabled_eq_ok hset
        rw [← husers] at hrows
        refine ⟨_, findEntryUser_of_replaced hrow.mem hrow.appUserId (atomicRow_id row) hrows, ?_, ?_⟩
        · rw [atomicRow, if_pos (hc.trans ha)]
          exact hrow.normalizedEmail
        · rw [if_pos ha, atomicRow, if_pos (hc.trans ha)]
          exact ⟨rfl, identity, findEntryIdentity_of_find hp hfind, hdisabled⟩

variable {invite : ProviderInviteReceipt}

/-- An invitation that went out is for an identity of the address. -/
theorem tryInvite_eq_some (hvalid : ValidEntry command.entry)
    (h : exec (tryInvite deps command) w = (.ok (some invite), w')) :
    ∃ identity ∈ w'.state.directory.identities.rows, identity.id = invite.userId ∧
      hasEmail command.entry.normalizedEmail identity = true := by
  unfold tryInvite at h
  rw [exec_tryCatch] at h
  rcases hreq : exec (do
    let invite ← request (inviteUser command.entry.normalizedEmail (inviteOwner deps command))
    return some invite) w with ⟨e | sent, u⟩
  · rw [hreq] at h
    cases h
  · rw [hreq] at h
    cases h
    obtain ⟨receipt, v, hrequest, h⟩ := exec_bind_eq_ok.mp hreq
    cases h
    exact inviteUser_eq_ok hvalid.normalizedEmail (request_eq_ok hrequest).1

/-- A finalization that was counted as applied has written the row of the claim. -/
theorem finishReinvite_eq_ok
    (hclaimed : Claimed command.entry (deps.operationUuid command.operationId) w.state.directory.users)
    (h : exec (finishReinvite deps command plan invite) w = (.ok outcome, w')) (hne : outcome ≠ .partially) :
    w'.state.directory.identities = w.state.directory.identities ∧
      ∃ row ∈ w.state.directory.users.rows, command.entry.appUserId = some row.id ∧
        row.normalizedEmail = some command.entry.normalizedEmail ∧
        w'.state.directory.users.rows =
          replaceRow AppUserRow.id (finalizedRow command.entry invite.userId row)
            w.state.directory.users.rows := by
  unfold finishReinvite at h
  rw [exec_tryCatch] at h
  rcases hfin : exec (do
    let _ ← storeMutation (finalizeReinvite deps command invite.userId)
      "AUTH_STORE_REINVITE_FINALIZE_FAILED"
    return DispositionOutcome.applied) w with ⟨e | counted, u⟩
  · rw [hfin] at h
    obtain ⟨compensation, v, -, h⟩ := exec_bind_eq_ok.mp h
    obtain ⟨-, t, -, h⟩ := exec_bind_eq_ok.mp h
    cases h
    exact absurd rfl hne
  · rw [hfin] at h
    cases h
    obtain ⟨stored, v, hstored, h⟩ := exec_bind_eq_ok.mp hfin
    cases h
    obtain ⟨answered, ho, -⟩ := storeMutation_eq_ok hstored
    obtain ⟨users, hb, hs⟩ := transaction_eq_ok ho
    rw [hs]
    exact ⟨rfl, finalizeReinviteTx_of_claimed hclaimed hb⟩

/-- **An invitation** that was counted as applied. -/
theorem bothDesired_of_reinvite (ha : command.entry.action = .RE_INVITE) (hvalid : ValidEntry command.entry)
    (h : exec (applyReinvite deps command plan) w = (.ok outcome, w')) (hne : outcome ≠ .partially)
    (hground : isClaimed w.state.directory.users command.entry
      (deps.operationUuid command.operationId) = false) :
    BothDesired command.entry w'.state.directory := by
  obtain ⟨claim, v, hclaim, h⟩ := exec_bind_eq_ok.mp h
  have happlied : claim ≠ .unchanged := by
    rintro rfl
    obtain ⟨stored, ho, hs⟩ := storeMutation_eq_ok hclaim
    unfold claimReinvite at ho
    split at ho
    · cases ho
    · obtain ⟨users, hb, -⟩ := transaction_eq_ok ho
      rcases claimReinviteTx_eq_ok hb with ⟨-, -, hc⟩ | ⟨rfl, -⟩
      · rw [hground] at hc
        cases hc
      · cases hs
  have hclaimed := claimed_of_storeMutation hclaim happlied
  rw [if_neg happlied] at h
  obtain ⟨invite, u, hinvite, h⟩ := exec_bind_eq_ok.mp h
  have husers : u.state.directory.users = v.state.directory.users := by
    have hs : SameUsers v.state (exec (tryInvite deps command) v).2.state := sameUsers_tryInvite v
    rwa [hinvite] at hs
  cases invite with
  | none =>
    obtain ⟨-, t, -, h⟩ := exec_bind_eq_ok.mp h
    cases h
    exact absurd rfl hne
  | some invite =>
    obtain ⟨identity, hmem, hid, hhas⟩ := tryInvite_eq_some hvalid hinvite
    obtain ⟨hidentities, row, hrow, hentry, he, hrows⟩ := finishReinvite_eq_ok (husers ▸ hclaimed) h hne
    have hnd : command.entry.action ≠ .DISABLE := by rw [ha]; nofun
    have hwritten : (finalizedRow command.entry invite.userId row).id = row.id := rfl
    refine ⟨_, findEntryUser_of_replaced hrow hentry hwritten hrows, he, ?_⟩
    rw [if_neg hnd, hidentities]
    exact ⟨rfl, rfl, identity, hmem, congrArg some hid.symm, hhas⟩

/-! ## 4. The reports of a run -/

/-- **A report is that of a turn** of the entry, on the plan of the run. -/
structure IsTurn (deps : AuthDispositionDependencies) (r : Report) : Prop where
  valid : ValidEntry r.entry
  keyId : isOpaqueId deps.keyId = true
  identities : r.entry.action = .DISABLE → SameButBans r.atPlan.identities r.before.identities
  turn : ∃ input refreshed plannedEntry w w',
    PlannedAt r.atPlan r.entry plannedEntry ∧ plannedEntry.outcome = r.planned ∧
    plannedEntry.outcome ≠ .BLOCKED ∧
    r.requestId = deps.operationUuid (entryCommand deps refreshed r.entry).operationId ∧
    (input.entries.find? fun candidate => candidate.entryId = plannedEntry.entryId) = some r.entry ∧
    exec (applyEntry deps input refreshed plannedEntry) w = (.ok r.outcome, w') ∧
    w.state.directory = r.before ∧ w'.state.directory = r.after

section

variable {r : Report} (h : IsTurn deps r)
  (ha : r.entry.action = .DISABLE ∨ r.entry.action = .LINK ∨ r.entry.action = .RE_INVITE)
include h ha

/-- **A turn that finds what it has to find** reports what is true. -/
theorem IsTurn.bothDesired
    (hne : r.outcome ≠ .partially) (hground : r.Grounded) : BothDesired r.entry r.after := by
  obtain ⟨hvalid, -, -, input, refreshed, plannedEntry, w, w', hp, ho, hnb, hr, hfind, hrun, hw, hw'⟩ := h
  have hk : r.entry.action ≠ .KEEP := by
    rcases ha with ha | ha | ha <;> rw [ha] <;> nofun
  have hka : plannedEntry.action ≠ .KEEP := by
    obtain ⟨snapshot, byId, byEmail, -, rfl⟩ := hp
    rwa [assess_entryId.2]
  unfold applyEntry at hrun
  unfold Report.Grounded at hground
  rw [← ho] at hground
  by_cases hu : plannedEntry.outcome = .UNCHANGED
  · rw [if_pos (.inl hu)] at hrun
    obtain ⟨-, rfl⟩ := Prod.mk.inj hrun
    rw [if_pos hu] at hground
    rw [← hw', hw]
    exact bothDesired_of_planned hvalid hk hp hu hground
  · rw [if_neg (not_or.mpr ⟨hu, hka⟩), hfind] at hrun
    rw [if_neg hu] at hground
    rw [← hw']
    rw [← hw] at hground
    let command := entryCommand deps refreshed r.entry
    rcases ha with ha | ha | ha
    · have hrun : exec (applyDisable deps command refreshed) w = (.ok r.outcome, w') := by
        simpa only [ha] using hrun
      simp only [ha] at hground
      exact bothDesired_of_disable rfl ha hrun hne hground
    · have hrun : exec (storeMutation (applyAtomic deps command) "AUTH_STORE_ATOMIC_APPLY_FAILED") w =
          (.ok r.outcome, w') := by
        simpa only [ha] using hrun
      simp only [ha] at hground
      exact bothDesired_of_link rfl ha hrun hground
    · have hrun : exec (applyReinvite deps command refreshed) w = (.ok r.outcome, w') := by
        simpa only [ha] using hrun
      simp only [ha, hr] at hground
      exact bothDesired_of_reinvite ha hvalid hrun hne hground

/-- A turn that the plan has left to do has had its locks. -/
theorem IsTurn.readsVoid (hu : r.planned ≠ .UNCHANGED) : deps.ReadsVoid := by
  obtain ⟨-, -, -, input, refreshed, plannedEntry, w, w', hp, ho, -, -, hfind, hrun, -, -⟩ := h
  have hka : plannedEntry.action ≠ .KEEP := by
    obtain ⟨snapshot, byId, byEmail, -, rfl⟩ := hp
    rw [assess_entryId.2]
    rcases ha with ha | ha | ha <;> rw [ha] <;> nofun
  have hatomic : ∀ {code outcome v}, exec (storeMutation
      (applyAtomic deps (entryCommand deps refreshed r.entry)) code) w = (.ok outcome, v) →
      deps.ReadsVoid := by
    intro code outcome v h
    obtain ⟨stored, ho, -⟩ := storeMutation_eq_ok h
    unfold applyAtomic at ho
    split at ho
    · cases ho
    · exact lockAuthCommand_entryCommand.mp (locked_of_transaction ho)
  unfold applyEntry at hrun
  rw [if_neg (not_or.mpr ⟨ho ▸ hu, hka⟩), hfind] at hrun
  rcases ha with ha | ha | ha
  · have hrun : exec (applyDisable deps (entryCommand deps refreshed r.entry) refreshed) w =
        (.ok r.outcome, w') := by
      simpa only [ha] using hrun
    obtain ⟨stored, v, hstored, -⟩ := exec_bind_eq_ok.mp hrun
    exact hatomic hstored
  · have hrun : exec (storeMutation (applyAtomic deps (entryCommand deps refreshed r.entry))
        "AUTH_STORE_ATOMIC_APPLY_FAILED") w = (.ok r.outcome, w') := by
      simpa only [ha] using hrun
    exact hatomic hrun
  · have hrun : exec (applyReinvite deps (entryCommand deps refreshed r.entry) refreshed) w =
        (.ok r.outcome, w') := by
      simpa only [ha] using hrun
    obtain ⟨claim, v, hclaim, -⟩ := exec_bind_eq_ok.mp hrun
    obtain ⟨stored, ho, -⟩ := storeMutation_eq_ok hclaim
    unfold claimReinvite at ho
    split at ho
    · cases ho
    · exact lockAuthCommand_entryCommand.mp (locked_of_transaction ho)

end

/-- The reports go on with turns. -/
def Turns (deps : AuthDispositionDependencies) (w w' : DispositionWorld) : Prop :=
  ∃ reports, w'.reports = w.reports ++ reports ∧ ∀ r ∈ reports, IsTurn deps r

instance : IsPreorder DispositionWorld (Turns deps) where
  refl w := ⟨[], (append_nil _).symm, fun _ h => nomatch h⟩
  trans := by
    rintro u v w ⟨rs, hv, hr⟩ ⟨rs', hw, hr'⟩
    refine ⟨rs ++ rs', by rw [hw, hv, append_assoc], fun r h => ?_⟩
    exact (mem_append.mp h).elim (hr r) (hr' r)

theorem Turns.of_same {w w' : DispositionWorld} (h : w'.reports = w.reports) : Turns deps w w' :=
  ⟨[], by rw [h, append_nil], fun _ h => nomatch h⟩

theorem turns_applyEntry (input : AuthDispositionInput) (refreshed : AuthDispositionPlan)
    (plannedEntry : AuthDispositionPlanEntry) :
    Moves (Turns deps) (applyEntry deps input refreshed plannedEntry) :=
  moves_applyEntry (fun _ _ _ _ _ => .of_same rfl) (fun _ _ => .of_same rfl) (fun _ _ => .of_same rfl)
    input refreshed plannedEntry

variable {input : AuthDispositionInput}

/-- The entry of a plan's entry, among valid ones. -/
theorem find_entry (hvalid : ValidInput input) (he : entry ∈ input.entries) {entryId : String}
    (hid : entryId = entry.entryId) :
    (input.entries.find? fun candidate => candidate.entryId = entryId) = some entry := by
  cases hf : input.entries.find? fun candidate => candidate.entryId = entryId with
  | none =>
    have := find?_eq_none.mp hf entry he
    simp [hid] at this
  | some found =>
    have hfound : found.entryId = entryId := by simpa using find?_some hf
    rw [inj_on_of_nodup_map hvalid.entryIds (mem_of_find?_eq_some hf) he (hfound.trans hid)]

/-- A DISABLE changes nothing but bans. -/
def SameWorldButBans (w w' : DispositionWorld) : Prop :=
  SameButBans w.directory.identities w'.directory.identities

instance : IsPreorder DispositionWorld SameWorldButBans where
  refl _ := rfl
  trans _ _ _ h h' := h'.trans h

theorem sameButBans_setUserDisabled (userId : String) (disabled : Bool) (identities : Identities) :
    SameButBans identities (setUserDisabled userId disabled identities).2 := by
  unfold setUserDisabled
  split
  · rfl
  · split
    · rfl
    · rename_i user hf
      split
      · rfl
      · split
        · rfl
        · unfold SameButBans Identities.put replaceRow
          rw [map_map]
          refine map_congr_left fun other hother => ?_
          rw [Function.comp_apply]
          split
          · rename_i he
            rw [inj_on_of_nodup_map identities.unique hother (Identities.find_eq_some hf).1 he]
            rfl
          · rfl

theorem bans_applyDisable : Moves SameWorldButBans (applyDisable deps command plan) := by
  have htx : Moves SameWorldButBans (applyAtomic deps command) :=
    .ite (moves_throw _) (moves_transaction fun _ _ _ _ _ => rfl)
  refine (moves_storeMutation htx _).bind fun stored => ?_
  refine .ite (moves_pure _) ?_
  split
  · exact moves_throw _
  · rename_i userId _
    have hset : Moves SameWorldButBans (request (setUserDisabled userId true)) :=
      moves_request fun w identities h => h ▸ sameButBans_setUserDisabled ..
    exact (hset.bind fun _ => moves_pure _).tryCatch fun _ =>
      (moves_recordPartial (fun _ _ => rfl) _ _ _ _ _).bind fun _ => moves_pure _

variable {refreshed : AuthDispositionPlan}

theorem bans_applyEntry (ha : entry.action = .DISABLE)
    (hf : (input.entries.find? fun candidate => candidate.entryId = plannedEntry.entryId) = some entry) :
    Moves SameWorldButBans (applyEntry deps input refreshed plannedEntry) := by
  refine .ite (moves_pure _) ?_
  rw [hf]
  simp only [ha]
  exact bans_applyDisable

variable {selected : List AuthDispositionPlanEntry}

/-- **The loop** reports its turns, all of one action. -/
theorem turns_applySelected (hvalid : ValidInput input) (hkey : isOpaqueId deps.keyId = true)
    (refreshed : AuthDispositionPlan) (action : AuthDispositionAction)
    (hselected : ∀ plannedEntry ∈ selected, plannedEntry.outcome ≠ .BLOCKED ∧
      ∃ entry ∈ input.entries, entry.action = action ∧ PlannedAt atPlan entry plannedEntry)
    (hstart : action = .DISABLE → SameButBans atPlan.identities w.state.directory.identities) :
    MovesAt (Turns deps) (applySelected deps input refreshed atPlan selected) w := by
  induction selected generalizing w with
  | nil => exact moves_pure _ w
  | cons plannedEntry rest ih =>
    obtain ⟨⟨hnb, entry, he, ha, hp⟩, hrest⟩ := forall_mem_cons.mp hselected
    have hid : plannedEntry.entryId = entry.entryId := by
      obtain ⟨snapshot, byId, byEmail, -, rfl⟩ := hp
      exact assess_entryId.1
    have hfind := find_entry hvalid he hid
    refine (moves_observe _ w).bind fun before v hv => ?_
    cases hv
    refine (turns_applyEntry input refreshed plannedEntry w).bind fun outcome u hu => ?_
    have hbans : action = .DISABLE → SameButBans atPlan.identities u.state.directory.identities := by
      intro hd
      have hm : SameWorldButBans w.state (exec (applyEntry deps input refreshed plannedEntry) w).2.state :=
        bans_applyEntry (ha.trans hd) hfind w
      rw [hu] at hm
      exact hm.trans (hstart hd)
    have hnote : MovesAt (Turns deps)
        (note (addReport deps input refreshed plannedEntry outcome atPlan w.state.directory)) u := by
      unfold addReport
      rw [hfind]
      refine ⟨_, rfl, fun r hr => ?_⟩
      rw [mem_singleton.mp hr]
      exact ⟨hvalid.entries entry he, hkey, fun hd => hstart (ha.symm.trans hd), input, refreshed, plannedEntry,
        w, u, hp, rfl, hnb, rfl, hfind, hu, rfl, rfl⟩
    refine hnote.bind fun _ t ht => ?_
    cases ht
    refine (ih hrest fun hd => ?_).bind fun _ t' _ => moves_pure _ t'
    have hsame : (addReport deps input refreshed plannedEntry outcome atPlan w.state.directory
        u.state).directory = u.state.directory := by
      unfold addReport
      rw [hfind]
    rw [hsame]
    exact hbans hd

theorem planAuthDisposition_eq_ok (h : exec (planAuthDisposition deps input) w = (.ok refreshed, w')) :
    isOpaqueId deps.keyId = true ∧ ∀ plannedEntry ∈ refreshed.entries, ∃ entry ∈ input.entries,
      PlannedAt w.state.directory entry plannedEntry := by
  unfold planAuthDisposition at h
  split at h
  · cases h
  · split at h
    · cases h
    · split at h
      · cases h
      · rename_i hkey
        obtain ⟨entries, v, hentries, h⟩ := exec_bind_eq_ok.mp h
        cases h
        exact ⟨by simpa using hkey, inspectEntries_eq_ok hentries⟩

theorem selectEntries_eq_ok {expectedPlan : AuthDispositionPlan} {action : AuthDispositionAction}
    (h : selectEntries refreshed expectedPlan action = .ok selected) :
    ∀ plannedEntry ∈ selected, plannedEntry ∈ refreshed.entries ∧ plannedEntry.action = action ∧
      plannedEntry.outcome ≠ .BLOCKED := by
  obtain ⟨-, h⟩ := ite_error_eq_ok.mp h
  obtain ⟨-, h⟩ := ite_error_eq_ok.mp h
  obtain ⟨hnone, h⟩ := ite_error_eq_ok.mp h
  cases h
  intro plannedEntry hp
  obtain ⟨hmem, ha⟩ := mem_filter.mp hp
  refine ⟨hmem, of_decide_eq_true ha, fun hb => hnone ?_⟩
  exact any_eq_true.mpr ⟨plannedEntry, hp, decide_eq_true hb⟩

/-- **A run** reports its turns. -/
theorem turns_applyAuthDisposition (deps : AuthDispositionDependencies) (input : AuthDispositionInput)
    (confirmation : AuthDispositionApplyConfirmation) (expectedPlan : AuthDispositionPlan) :
    Moves (Turns deps) (applyAuthDisposition deps input confirmation expectedPlan) := by
  intro w
  unfold applyAuthDisposition
  cases hcheck : checkApply input confirmation expectedPlan with
  | error e => exact refl_of (Turns deps) w.state
  | ok u =>
    refine (moves_pure _ w).bind fun _ v hv => ?_
    cases hv
    have hplan : Moves (Turns deps) (planAuthDisposition deps input) :=
      (moves_planAuthDisposition deps input).mono fun s s' h => h ▸ refl_of (Turns deps) s
    refine (hplan w).bind fun refreshed v hv => ?_
    have hstate : w.state = v.state := by
      have hm : w.state = (exec (planAuthDisposition deps input) w).2.state :=
        moves_planAuthDisposition deps input w
      rwa [hv] at hm
    refine (moves_liftExcept _ v).bind fun selected u hu => ?_
    cases hselect : selectEntries refreshed expectedPlan confirmation.action with
    | error e =>
      rw [hselect] at hu
      cases hu
    | ok chosen =>
      rw [hselect] at hu
      cases hu
      refine (moves_observe _ v).bind fun atPlan t ht => ?_
      cases ht
      obtain ⟨hkey, hplanned⟩ := planAuthDisposition_eq_ok hv
      refine (turns_applySelected (validInput_of_checkApply hcheck) hkey refreshed confirmation.action
        (fun plannedEntry hp => ?_) fun _ => rfl).bind fun _ t' _ => moves_pure _ t'
      obtain ⟨hmem, ha, hnb⟩ := selectEntries_eq_ok hselect plannedEntry hp
      obtain ⟨entry, he, hplanned⟩ := hplanned plannedEntry hmem
      refine ⟨hnb, entry, he, ?_, hstate ▸ hplanned⟩
      obtain ⟨snapshot, byId, byEmail, -, rfl⟩ := hplanned
      exact assess_entryId.2.symm.trans ha

end AdsManagement.Maintenance
