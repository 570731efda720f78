/-
  File:      Maintenance/DispositionRecovery.lean
  Subject:   A DISABLE THAT WAS APPLIED IN PART and how a later manifest finishes it.

  The table says inactive, the provider has failed. A manifest with the same desired role is taken
  for done; one that desires another role is not, so that its run writes the row once more and
  reaches the provider. The plan blocks it where the user is a super administrator and at most one
  enabled super administrator is left.

  * `partial_disable` -- what a DISABLE that was counted in part has left;
  * `recoveryEntry`, `recovers` -- the manifest that finishes it, run with every call answered;
  * `reported_outcome_true` -- the reports of any sequence of runs;
  * `disable_reported_unchanged` -- the manifest issued again, counted as unchanged.
-/
import AdsManagement.Maintenance.DispositionOutcomes

namespace AdsManagement.Maintenance

open Common Lib List
open Users (AppRole InviteStatus)

/-! ## 1. Look-ups but for bans -/

/-- A user of the provider but for the ban. -/
def eraseUserBan (user : AuthProviderUser) : AuthProviderUser := { user with disabled := false }

theorem mapSupabaseUser_eraseBan (identity : ProviderIdentity) :
    mapSupabaseUser (eraseBan identity) = (mapSupabaseUser identity).map eraseUserBan := by
  obtain ⟨id, email, verified, disabled, owner⟩ := identity
  cases email with
  | none => rfl
  | some email =>
    unfold mapSupabaseUser eraseBan
    dsimp only
    cases isOpaqueId id with
    | false => rfl
    | true => cases normalizeProviderEmail email <;> rfl

theorem matchesInPage_map (email : String) (l : List ProviderIdentity) :
    matchesInPage email (l.map eraseBan) = (matchesInPage email l).map (map eraseBan) := by
  induction l with
  | nil => rfl
  | cons identity rest ih =>
    have hcons : ∀ (user : ProviderIdentity) (others : List ProviderIdentity),
        matchesInPage email (user :: others) = (do
          let exact ← isExactEmail email user
          let others ← matchesInPage email others
          return if exact then user :: others else others) := fun _ _ => rfl
    rw [map_cons, hcons, hcons, ih, show isExactEmail email (eraseBan identity) =
      isExactEmail email identity from rfl]
    rcases isExactEmail email identity with e | exact
    · rfl
    · rcases matchesInPage email rest with e | others
      · rfl
      · cases exact <;> rfl

theorem findInPages_map (email : String) (pages : Nat) (data : List (List ProviderIdentity)) :
    findInPages email pages (data.map (map eraseBan)) =
      (findInPages email pages data).map (Option.map eraseUserBan) := by
  induction data generalizing pages with
  | nil => cases pages <;> rfl
  | cons page rest ih =>
    cases pages with
    | zero => rfl
    | succ pages =>
      rw [map_cons, findInPages, findInPages, matchesInPage_map]
      rcases matchesInPage email page with e | found
      · rfl
      · match found with
        | [] => exact ih pages
        | [identity] =>
          change (mapSupabaseUser (eraseBan identity)).map some = _
          rw [mapSupabaseUser_eraseBan]
          change _ = ((mapSupabaseUser identity).map some).map (Option.map eraseUserBan)
          rcases mapSupabaseUser identity with e | user <;> rfl
        | _ :: _ :: _ => rfl

variable {identities identities' : Identities}

/-- A search by address finds the same but for bans. -/
theorem findExactEmail_of_sameButBans (h : SameButBans identities identities') (email : String) :
    (findExactEmail identities' email).map (Option.map eraseUserBan) =
      (findExactEmail identities email).map (Option.map eraseUserBan) := by
  have hmap : ∀ l : List ProviderIdentity,
      (findInPages email 100 (chunks 100 l)).map (Option.map eraseUserBan) =
        findInPages email 100 (chunks 100 (l.map eraseBan)) := by
    intro l
    rw [chunks_map, findInPages_map]
  unfold findExactEmail
  rw [hmap, hmap, h]

theorem find?_of_sameButBans {p : ProviderIdentity → Bool} (h : SameButBans identities identities')
    (hp : ∀ identity, p (eraseBan identity) = p identity) :
    (identities'.rows.find? p).map eraseBan = (identities.rows.find? p).map eraseBan := by
  have hcomp : p ∘ eraseBan = p := funext hp
  have hmap : ∀ l : List ProviderIdentity, (l.map eraseBan).find? p = (l.find? p).map eraseBan := by
    intro l
    rw [find?_map, hcomp]
  rw [← hmap, ← hmap, h]

/-- The identity of an entry is the same but for its ban. -/
theorem findEntryIdentity_of_sameButBans (h : SameButBans identities identities')
    (entry : AuthDispositionEntry) :
    (findEntryIdentity identities' entry).map eraseBan = (findEntryIdentity identities entry).map eraseBan := by
  have hid : (entry.providerUserId.bind identities'.find).map eraseBan =
      (entry.providerUserId.bind identities.find).map eraseBan := by
    cases entry.providerUserId with
    | none => rfl
    | some userId => exact find?_of_sameButBans h fun _ => rfl
  have hemail := find?_of_sameButBans h (p := hasEmail entry.normalizedEmail) fun _ => rfl
  unfold findEntryIdentity
  rw [Option.map_or, Option.map_or, hid, hemail]

/-! ## 2. A DISABLE in part -/

variable {entry : AuthDispositionEntry} {snapshot : Option AppUserSnapshot}
  {byId byEmail : Option AuthProviderUser} {deps : AuthDispositionDependencies}

/-- What a DISABLE that is READY has found at the provider. -/
theorem assess_ready (h : (assess entry snapshot byId byEmail).outcome = .READY)
    (ha : entry.action = .DISABLE) :
    (∀ user other, byId = some user → byEmail = some other → user.id = other.id) ∧
      ∃ user, byId.or byEmail = some user ∧ user.email = entry.normalizedEmail ∧
        user.emailVerified = true := by
  unfold assess at h
  obtain ⟨hconflict, h⟩ := (ite_blocked .READY nofun).mp h
  obtain ⟨hemail, h⟩ := (ite_blocked .READY nofun).mp h
  obtain ⟨hverified, h⟩ := (ite_blocked .READY nofun).mp h
  obtain ⟨-, h⟩ := (ite_blocked .READY nofun).mp h
  rw [if_neg (by rw [ha]; nofun)] at h
  refine ⟨fun user other hu ho => ?_, ?_⟩
  · rw [hu, ho] at hconflict
    simpa using hconflict
  · split at h
    · split at h <;> cases h
    · rw [if_neg (by rw [ha]; nofun)] at h
      obtain ⟨hsome, -⟩ := (ite_blocked .READY nofun).mp h
      cases hu : byId.or byEmail with
      | none => simp [hu] at hsome
      | some user =>
        rw [hu] at hemail hverified
        have hra : entry.action ≠ .RE_INVITE := by rw [ha]; nofun
        exact ⟨user, rfl, by simpa using hemail, by simpa [hra] using hverified⟩

/-- The identity of a DISABLE, which the provider shows as the plan wants it. -/
structure FoundIdentity (identities : Identities) (entry : AuthDispositionEntry)
    (identity : ProviderIdentity) (user : AuthProviderUser) (byEmail : Option AuthProviderUser) : Prop where
  found : findEntryIdentity identities entry = some identity
  mapped : mapSupabaseUser identity = .ok user
  email : user.email = entry.normalizedEmail
  verified : user.emailVerified = true
  searched : findExactEmail identities entry.normalizedEmail = .ok byEmail
  agrees : ∀ other, byEmail = some other → other.id = identity.id

theorem foundIdentity_of_ready {directory : Directory} {plannedEntry : AuthDispositionPlanEntry}
    (hvalid : ValidEntry entry) (ha : entry.action = .DISABLE) (hp : PlannedAt directory entry plannedEntry)
    (hr : plannedEntry.outcome = .READY) :
    ∃ identity user byEmail, FoundIdentity directory.identities entry identity user byEmail := by
  obtain ⟨snapshot, byId, byEmail, hi, rfl⟩ := hp
  obtain ⟨hagree, user, hu, hemail, hverified⟩ := assess_ready hr ha
  have hsearched := hi.byEmail
  rw [findUserByEmail_eq hvalid.normalizedEmail] at hsearched
  rcases hi.identity hvalid.normalizedEmail with ⟨hnone, -⟩ | ⟨identity, user', hsome, hfound, hmap⟩
  · rw [hnone] at hu
    cases hu
  · rw [hsome] at hu
    cases hu
    refine ⟨identity, user, byEmail, hfound, hmap, hemail, hverified, hsearched, fun other ho => ?_⟩
    rw [← (mapSupabaseUser_eq_ok hmap).2.1]
    cases hid : byId with
    | none =>
      rw [hid, ho] at hsome
      rw [Option.some.inj hsome]
    | some found =>
      rw [hid] at hsome
      rw [← Option.some.inj hsome]
      exact (hagree found other hid ho).symm

variable {user : AuthProviderUser}

/-- The identity stays the one found while only bans change. -/
theorem FoundIdentity.of_sameButBans {identity : ProviderIdentity}
    (h : FoundIdentity identities entry identity user byEmail) (hs : SameButBans identities identities') :
    ∃ identity' user' byEmail', FoundIdentity identities' entry identity' user' byEmail' := by
  have hfound := findEntryIdentity_of_sameButBans hs entry
  rw [h.found] at hfound
  obtain ⟨identity', hfound', herase⟩ := Option.map_eq_some_iff.mp hfound
  have hmapped : (mapSupabaseUser identity').map eraseUserBan = .ok (eraseUserBan user) := by
    rw [← mapSupabaseUser_eraseBan, herase, mapSupabaseUser_eraseBan, h.mapped]
    rfl
  obtain ⟨user', hmap', huser⟩ := map_eq_ok.mp hmapped
  have hsearched := findExactEmail_of_sameButBans hs entry.normalizedEmail
  rw [h.searched] at hsearched
  obtain ⟨byEmail', hsearched', hby⟩ := map_eq_ok.mp hsearched
  have hid : identity'.id = identity.id := (ProviderIdentity.mk.inj herase).1
  refine ⟨identity', user', byEmail', hfound', hmap', (AuthProviderUser.mk.inj huser).2.1.trans h.email,
    (AuthProviderUser.mk.inj huser).2.2.1.trans h.verified, hsearched', fun other ho => ?_⟩
  rw [ho] at hby
  obtain ⟨other', ho', he⟩ := Option.map_eq_some_iff.mp hby.symm
  rw [hid, ← h.agrees other' ho']
  exact ((AuthProviderUser.mk.inj he).1).symm

/-- What was counted in part was not counted by the plan. -/
theorem IsTurn.planned_of_partial {r : Report} (h : IsTurn deps r) (hp : r.outcome = .partially) :
    r.planned ≠ .UNCHANGED := by
  obtain ⟨-, -, -, input, refreshed, plannedEntry, w, w', -, ho, -, -, -, hrun, -, -⟩ := h
  intro hu
  unfold applyEntry at hrun
  rw [if_pos (.inl (ho.trans hu))] at hrun
  obtain ⟨hout, -⟩ := Prod.mk.inj hrun
  rw [hp] at hout
  cases hout

/-- **What a DISABLE in part has left**: the row is written, and the identity is there still. -/
theorem partial_disable {r : Report} (h : IsTurn deps r) (ha : r.entry.action = .DISABLE)
    (hp : r.outcome = .partially) :
    (∃ row, ExpectedRow r.entry r.before.users row ∧
      r.after.users.rows = replaceRow AppUserRow.id (atomicRow .DISABLE r.entry row) r.before.users.rows) ∧
    ∃ identity user byEmail, FoundIdentity r.after.identities r.entry identity user byEmail := by
  have hu := h.planned_of_partial hp
  obtain ⟨hvalid, -, hbans, input, refreshed, plannedEntry, w, w', hplanned, ho, hnb, -, hfind, hrun, hw, hw'⟩ := h
  have hka : plannedEntry.action ≠ .KEEP := by
    obtain ⟨snapshot, byId, byEmail, -, rfl⟩ := hplanned
    rw [assess_entryId.2, ha]
    nofun
  have hrunBans : SameButBans r.before.identities r.after.identities := by
    have hm : SameWorldButBans w.state (exec (applyEntry deps input refreshed plannedEntry) w).2.state :=
      bans_applyEntry ha hfind w
    rw [hrun] at hm
    rw [← hw, ← hw']
    exact hm
  unfold applyEntry at hrun
  have hready : plannedEntry.outcome = .READY := by
    cases hcase : plannedEntry.outcome with
    | READY => rfl
    | BLOCKED => exact absurd hcase hnb
    | UNCHANGED => exact absurd (ho.symm.trans hcase) hu
  rw [if_neg (not_or.mpr ⟨by rw [hready]; nofun, hka⟩), hfind] at hrun
  obtain ⟨identity, user, byEmail, hfound⟩ := foundIdentity_of_ready hvalid ha hplanned hready
  refine ⟨?_, hfound.of_sameButBans (hrunBans.trans (hbans ha))⟩
  have hrun : exec (applyDisable deps (entryCommand deps refreshed r.entry) refreshed) w =
      (.ok r.outcome, w') := by
    simpa only [ha] using hrun
  obtain ⟨stored, v, hstored, hrun⟩ := exec_bind_eq_ok.mp hrun
  obtain ⟨-, ⟨rfl, -⟩ | ⟨rfl, row, hrow, hrows⟩⟩ := applyAtomic_eq_ok hstored
  · obtain ⟨hout, -⟩ := Prod.mk.inj hrun
    rw [hp] at hout
    cases hout
  · rw [if_neg nofun] at hrun
    refine ⟨row, hw ▸ hrow, ?_⟩
    have hkeep : SameUsers v.state w'.state := by
      split at hrun
      · cases hrun
      · rename_i userId _
        have hm : Moves SameUsers (tryCatch
            (do
              let _ ← request (setUserDisabled userId true)
              return DispositionOutcome.applied)
            fun _ => do
              recordPartial (entryCommand deps refreshed r.entry) refreshed .DB_APPLIED_PROVIDER_FAILED
                .NOT_APPLICABLE "AUTH_DISABLE_PROVIDER_FAILED"
              return DispositionOutcome.partially) :=
          ((moves_request fun _ _ _ => rfl).bind fun _ => moves_pure _).tryCatch fun _ =>
            (moves_recordPartial (fun _ _ => rfl) _ _ _ _ _).bind fun _ => moves_pure _
        have hv := hm v
        unfold MovesAt at hv
        rw [hrun] at hv
        exact hv
    rw [← hw', hkeep, hrows, ← hw]
    rw [show (entryCommand deps refreshed r.entry).action = .DISABLE from ha]
    rfl

/-! ## 3. The manifest that finishes it -/

/-- Another role than the one given. -/
def otherRole (role : AppRole) : AppRole := if role = .USER then .GUEST else .USER

theorem otherRole_ne (role : AppRole) : role ≠ otherRole role := by
  cases role <;> decide

/-- The entry for the user and the identity as they are now. It desires another role than the user
    has, or else the row would be taken for done. -/
def recoveryEntry (entry : AuthDispositionEntry) (row : AppUserRow) (identity : ProviderIdentity) :
    AuthDispositionEntry :=
  { entry with
    appUserId := some row.id
    providerUserId := some identity.id
    expectedLinkedProviderUserId := row.authUserId
    expectedAuthzVersion := some row.authzVersion
    desiredRole := otherRole row.role
    desiredActive := false }

theorem findByEmail_of_mem {users : AppUsers} {row : AppUserRow} {email : String} (h : row ∈ users.rows)
    (he : row.normalizedEmail = some email) : users.findByEmail email = some row := by
  cases hf : users.findByEmail email with
  | none =>
    have := find?_eq_none.mp hf row h
    simp [he] at this
  | some found =>
    obtain ⟨hm, hfound⟩ := AppUsers.findByEmail_eq_some hf
    rw [eq_of_nodup_filterMap users.constraints.normalizedEmails hm h hfound he]

/-- An entry that finishes a DISABLE: nothing on either side stands in its way. -/
structure Finishes (directory : Directory) (entry : AuthDispositionEntry) (row : AppUserRow)
    (identity : ProviderIdentity) (user : AuthProviderUser) (byEmail : Option AuthProviderUser) : Prop where
  valid : ValidEntry entry
  action : entry.action = .DISABLE
  expected : ExpectedRow entry directory.users row
  role : row.role ≠ entry.desiredRole
  spare : row.role ≠ .SUPER_ADMIN ∨ 2 ≤ enabledSuperAdminCount directory.users
  version : row.authzVersion < 2147483647
  provider : entry.providerUserId = some identity.id
  found : FoundIdentity directory.identities entry identity user byEmail

namespace Finishes

variable {directory : Directory} {row : AppUserRow} {identity : ProviderIdentity}

section

variable (h : Finishes directory entry row identity user byEmail)
include h

theorem inspected : inspectPrismaUser directory.users entry =
      .ok (some (snapshotOf directory.users row entry.normalizedEmail)) := by
  have hne : entry.normalizedEmail ≠ "" := by
    intro he
    have hn := h.valid.normalizedEmail
    rw [he] at hn
    revert hn
    decide
  unfold inspectPrismaUser
  rw [h.expected.appUserId, Option.bind_some, AppUsers.findById_of_mem h.expected.mem,
    findByEmail_of_mem h.expected.mem h.expected.normalizedEmail]
  dsimp only
  rw [if_neg (not_not.mpr rfl), mapPrismaUser, h.expected.normalizedEmail]
  dsimp only
  rw [if_neg hne]
  rfl

theorem snapshotValid : validateSnapshot (snapshotOf directory.users row entry.normalizedEmail) =
      .ok (snapshotOf directory.users row entry.normalizedEmail) := by
  have hid : isOpaqueId row.id = true := by
    have hv := h.valid.appUserId
    rwa [h.expected.appUserId] at hv
  have hlink : isValidOpaqueId row.authUserId = true := by
    rw [h.expected.authUserId]
    exact h.valid.linkedProviderUserId
  have hversion : ¬ row.authzVersion > maxSafeInteger := by
    have := h.version
    unfold maxSafeInteger
    omega
  unfold validateSnapshot snapshotOf
  rw [if_neg (by simp [hid, hlink]), h.valid.normalizedEmail]
  dsimp only
  rw [if_neg (not_or.mpr ⟨not_not.mpr rfl, hversion⟩)]

theorem foundById : findUserById directory.identities identity.id = .ok (some user) := by
  unfold findUserById
  rw [if_neg (by simp [(mapSupabaseUser_eq_ok h.found.mapped).1]),
    Identities.find_of_mem (mem_of_findEntryIdentity h.found.found)]
  dsimp only
  rw [h.found.mapped]
  rfl

theorem foundByEmail : findUserByEmail directory.identities entry.normalizedEmail = .ok byEmail := by
  rw [findUserByEmail_eq h.valid.normalizedEmail]
  exact h.found.searched

theorem snapshotMatches :
    snapshotMatchesIdentity (some (snapshotOf directory.users row entry.normalizedEmail)) entry = true := by
  unfold snapshotMatchesIdentity snapshotOf
  rw [h.expected.appUserId]
  simp [h.expected.authzVersion, h.expected.authUserId]

theorem assessed :
    assess entry (some (snapshotOf directory.users row entry.normalizedEmail)) (some user) byEmail =
      planned entry .READY "AUTH_DISABLE_READY" := by
  have hconflict : ¬ ((some user).any fun found => byEmail.any fun other => found.id ≠ other.id) = true := by
    cases hb : byEmail with
    | none => simp
    | some other => simp [h.found.agrees other hb, (mapSupabaseUser_eq_ok h.found.mapped).2.1]
  have hnotDesired : isDesiredState (some (snapshotOf directory.users row entry.normalizedEmail))
      ((some user).or byEmail) entry ≠ true := by
    intro hd
    obtain ⟨hcolumns, -⟩ := Bool.and_eq_true_iff.mp hd
    simp only [Bool.and_eq_true, decide_eq_true_eq] at hcolumns
    exact h.role hcolumns.1.2
  have hspare : ¬ (entry.action = .DISABLE ∧
      (some (snapshotOf directory.users row entry.normalizedEmail)).any (fun snapshot =>
        snapshot.role = .SUPER_ADMIN && snapshot.remainingEnabledSuperAdmins ≤ 1) = true) := by
    rintro ⟨-, hs⟩
    simp only [Option.any_some, Bool.and_eq_true, decide_eq_true_eq] at hs
    rcases h.spare with hr | hc
    · exact hr hs.1
    · have : enabledSuperAdminCount directory.users ≤ 1 := hs.2
      omega
  unfold assess
  rw [if_neg hconflict, if_neg (by simp [h.found.email]), if_neg (by simp [h.found.verified]),
    if_neg (fun hn => hn.1 h.action), if_neg (by rw [h.action]; nofun),
    if_neg (by simp [h.snapshotMatches]), if_neg (by rw [h.action]; nofun),
    if_neg hspare, if_neg hnotDesired, h.action]
  rfl

end

variable {w : DispositionWorld}

/-- The plan of the entry, where every call is answered. -/
theorem exec_inspectEntry (h : Finishes w.directory entry row identity user byEmail) :
    exec (inspectEntry entry) ⟨w, []⟩ = (.ok (planned entry .READY "AUTH_DISABLE_READY"), ⟨w, []⟩) := by
  have hraw : exec (query fun w => inspectPrismaUser w.directory.users entry)
      (⟨w, []⟩ : Remote String DispositionWorld) =
        (.ok (some (snapshotOf w.directory.users row entry.normalizedEmail)), ⟨w, []⟩) :=
    congrArg (·, (⟨w, []⟩ : Remote String DispositionWorld)) h.inspected
  have hsnapshot : exec (inspectSnapshot entry) ⟨w, []⟩ =
      (.ok (some (snapshotOf w.directory.users row entry.normalizedEmail)), ⟨w, []⟩) := by
    refine exec_bind_eq_ok.mpr ⟨_, _, tryCatch_throw_eq_ok.mpr hraw, ?_⟩
    dsimp only
    rw [h.snapshotValid]
    rfl
  have hbyId : exec (inspectIdentityById entry) ⟨w, []⟩ = (.ok (some user), ⟨w, []⟩) := by
    unfold inspectIdentityById
    rw [h.provider]
    refine tryCatch_throw_eq_ok.mpr ?_
    exact congrArg (·, (⟨w, []⟩ : Remote String DispositionWorld)) h.foundById
  have hbyEmail : exec (redactProviderError (query fun w =>
      findUserByEmail w.directory.identities entry.normalizedEmail))
        (⟨w, []⟩ : Remote String DispositionWorld) = (.ok byEmail, ⟨w, []⟩) :=
    tryCatch_throw_eq_ok.mpr (congrArg (·, (⟨w, []⟩ : Remote String DispositionWorld)) h.foundByEmail)
  rw [← h.assessed]
  exact exec_bind_eq_ok.mpr ⟨_, _, hsnapshot, exec_bind_eq_ok.mpr ⟨_, _, hbyId,
    exec_bind_eq_ok.mpr ⟨_, _, hbyEmail, rfl⟩⟩⟩

/-- The row is written once more. -/
theorem applyAtomicTx_ok (h : Finishes directory entry row identity user byEmail) :
    ∃ users, applyAtomicTx .DISABLE entry directory = .ok (.APPLIED, users) ∧
      users.rows = replaceRow AppUserRow.id (atomicRow .DISABLE entry row) directory.users.rows := by
  have hkeys := directory.users.constraints
  have hcolumn : ∀ {β : Type} (column : AppUserRow → Option β),
      column (atomicRow .DISABLE entry row) = column row →
      (replaceRow AppUserRow.id (atomicRow .DISABLE entry row) directory.users.rows).filterMap column =
        directory.users.rows.filterMap column :=
    fun _ hc => filterMap_replaceRow hkeys.ids h.expected.mem rfl hc
  have hconstraints : TableConstraints
      (replaceRow AppUserRow.id (atomicRow .DISABLE entry row) directory.users.rows) := by
    refine ⟨?_, ?_, ?_, ?_, ?_, ?_⟩
    · rw [replaceRow_keys]
      exact hkeys.ids
    · rw [hcolumn AppUserRow.email rfl]
      exact hkeys.emails
    · rw [hcolumn AppUserRow.normalizedEmail rfl]
      exact hkeys.normalizedEmails
    · rw [hcolumn AppUserRow.authUserId rfl]
      exact hkeys.authUserIds
    · rw [hcolumn AppUserRow.invitationRequestId rfl]
      exact hkeys.invitationRequestIds
    · intro after hafter
      obtain ⟨before, hbefore, rfl⟩ := mem_map.mp hafter
      split
      · exact h.version
      · exact hkeys.authzVersions before hbefore
  have hdesired : ¬ isPrismaDesired (some (snapshotOf directory.users row entry.normalizedEmail)) entry = true :=
    fun hd => h.role (isPrismaDesired_iff.mp hd).1
  have hsafe : assertLastSuperAdminSafe directory.users
      (snapshotOf directory.users row entry.normalizedEmail) entry = .ok () := by
    unfold assertLastSuperAdminSafe
    split
    · rfl
    · rename_i hrole
      refine if_neg fun hc => ?_
      rcases h.spare with hr | hcount
      · exact hrole (.inl hr)
      · omega
  have hupdate : directory.users.update row.id (atomicRow .DISABLE entry) = .ok ⟨_, hconstraints⟩ := by
    unfold AppUsers.update
    rw [AppUsers.findById_of_mem h.expected.mem]
    exact dif_pos hconstraints
  refine ⟨⟨_, hconstraints⟩, ?_, rfl⟩
  refine bind_eq_ok.mpr ⟨_, h.inspected, ?_⟩
  rw [if_neg hdesired, h.expected.appUserId]
  dsimp only
  rw [if_neg (by simp [h.snapshotMatches])]
  exact bind_eq_ok.mpr ⟨_, hsafe, bind_eq_ok.mpr ⟨_, hupdate, rfl⟩⟩

theorem setUserDisabled_ok (h : Finishes directory entry row identity user byEmail) :
    (setUserDisabled identity.id true directory.identities).1 = .ok user.id := by
  unfold setUserDisabled
  rw [if_neg (by simp [(mapSupabaseUser_eq_ok h.found.mapped).1]),
    Identities.find_of_mem (mem_of_findEntryIdentity h.found.found)]
  dsimp only
  rw [h.found.mapped]
  dsimp only
  split <;> rfl

/-- The manifest of one entry. -/
def manifest (entry : AuthDispositionEntry) (target : CloudTargetBinding) : AuthDispositionInput where
  manifestId := "recovery-manifest"
  target := target
  entries := [entry]

def plan (deps : AuthDispositionDependencies) (entry : AuthDispositionEntry) (target : CloudTargetBinding) :
    AuthDispositionPlan :=
  dispositionPlan deps (manifest entry target) [planned entry .READY "AUTH_DISABLE_READY"]

theorem validateManifest (h : Finishes directory entry row identity user byEmail)
    (target : CloudTargetBinding) : validateDispositionInput (manifest entry target) = .ok () := by
  have hid : isOpaqueId "recovery-manifest" = true := by decide +kernel
  unfold validateDispositionInput manifest
  rw [if_neg (by simp [hid])]
  exact bind_eq_ok.mpr ⟨(), validateEntry_eq_ok_iff.mpr ⟨not_mem_nil, h.valid⟩, rfl⟩

variable {target : CloudTargetBinding}

section

variable (h : Finishes w.directory entry row identity user byEmail)
include h

theorem exec_plan (hproject : deps.projectRef = target.projectRef) (hkey : isOpaqueId deps.keyId = true) :
    exec (planAuthDisposition deps (manifest entry target)) ⟨w, []⟩ = (.ok (plan deps entry target), ⟨w, []⟩) := by
  have hsame : ¬ deps.projectRef ≠ (manifest entry target).target.projectRef := not_not.mpr hproject
  unfold planAuthDisposition
  rw [h.validateManifest]
  rw [if_neg hsame, if_neg (by simp [hkey])]
  exact exec_bind_eq_ok.mpr ⟨_, _, exec_bind_eq_ok.mpr ⟨_, _, h.exec_inspectEntry,
    exec_bind_eq_ok.mpr ⟨_, _, rfl, rfl⟩⟩, rfl⟩

/-- The turn writes the row and reaches the provider. -/
theorem exec_applyDisable
    {command : AuthAtomicCommand} {refreshed : AuthDispositionPlan} (hentry : command.entry = entry)
    (haction : command.action = .DISABLE) (hlock : lockAuthCommand deps command = .ok ()) :
    ∃ w', exec (applyDisable deps command refreshed) ⟨w, []⟩ = (.ok .applied, ⟨w', []⟩) ∧
      w'.directory.users.rows = replaceRow AppUserRow.id (atomicRow .DISABLE entry row) w.directory.users.rows ∧
      w'.directory.identities = (setUserDisabled identity.id true w.directory.identities).2 := by
  obtain ⟨users, htx, hrows⟩ := h.applyAtomicTx_ok
  let committed := w.commit .applyAtomic entry users
  have hatomic : exec (applyAtomic deps command) ⟨w, []⟩ = (.ok .APPLIED, ⟨committed, []⟩) := by
    unfold applyAtomic
    rw [if_neg (fun hn => hn.2 haction), hentry, haction]
    unfold transaction
    rw [exec_call_answered, hlock]
    dsimp only [bind, Except.bind]
    rw [htx, hentry]
    rfl
  have hstored : exec (storeMutation (applyAtomic deps command) "AUTH_STORE_DISABLE_FAILED") ⟨w, []⟩ =
      (.ok .applied, ⟨committed, []⟩) :=
    exec_bind_eq_ok.mpr ⟨_, _, tryCatch_throw_eq_ok.mpr hatomic, rfl⟩
  let disabled : DispositionWorld :=
    { committed with directory := { committed.directory with
        identities := (setUserDisabled identity.id true w.directory.identities).2 } }
  have hrequest : exec (request (setUserDisabled identity.id true)) ⟨committed, []⟩ =
      (.ok user.id, ⟨disabled, []⟩) := by
    unfold request
    exact congrArg (·, (⟨disabled, []⟩ : Remote String DispositionWorld)) h.setUserDisabled_ok
  refine ⟨disabled, exec_bind_eq_ok.mpr ⟨_, _, hstored, ?_⟩, hrows, rfl⟩
  rw [if_neg nofun, hentry, h.provider]
  rw [exec_tryCatch, exec_bind, hrequest]
  rfl

/-- **The run** of that manifest applies its entry. -/
theorem exec_apply (hproject : deps.projectRef = target.projectRef) (hkey : isOpaqueId deps.keyId = true)
    (hvoid : deps.ReadsVoid) :
    ∃ counts w', exec (applyAuthDisposition deps (manifest entry target)
        (confirmationOf .DISABLE (plan deps entry target)) (plan deps entry target)) ⟨w, []⟩ =
          (.ok counts, w') ∧ counts.applied = 1 ∧
      w'.state.directory.users.rows =
        replaceRow AppUserRow.id (atomicRow .DISABLE entry row) w.directory.users.rows ∧
      w'.state.directory.identities = (setUserDisabled identity.id true w.directory.identities).2 := by
  let plannedEntry := planned entry .READY "AUTH_DISABLE_READY"
  have hcheck : checkApply (manifest entry target) (confirmationOf .DISABLE (plan deps entry target))
      (plan deps entry target) = .ok () := by
    refine bind_eq_ok.mpr ⟨(), h.validateManifest target, bind_eq_ok.mpr ⟨(), ?_, ?_⟩⟩
    · exact (if_neg (not_not.mpr rfl)).trans
        ((if_neg (not_not.mpr rfl)).trans (if_neg (not_not.mpr rfl)))
    · exact (if_neg (not_not.mpr rfl)).trans
        (if_neg (not_or.mpr ⟨not_not.mpr rfl, not_not.mpr rfl⟩))
  have hselect : selectEntries (plan deps entry target) (plan deps entry target) .DISABLE =
      .ok [plannedEntry] := by
    unfold selectEntries
    rw [if_neg (not_not.mpr rfl)]
    have hfilter : (plan deps entry target).entries.filter (fun entry => entry.action = .DISABLE) =
        [plannedEntry] := filter_cons_of_pos (decide_eq_true h.action)
    rw [hfilter]
    rfl
  have hfind : ((manifest entry target).entries.find? fun candidate =>
      candidate.entryId = plannedEntry.entryId) = some entry :=
    find?_cons_of_pos (decide_eq_true rfl)
  have hdisable : ∃ w', exec (applyDisable deps (entryCommand deps (plan deps entry target) entry)
      (plan deps entry target)) ⟨w, []⟩ = (.ok .applied, ⟨w', []⟩) ∧
      w'.directory.users.rows = replaceRow AppUserRow.id (atomicRow .DISABLE entry row) w.directory.users.rows ∧
      w'.directory.identities = (setUserDisabled identity.id true w.directory.identities).2 :=
    h.exec_applyDisable rfl h.action (lockAuthCommand_entryCommand.mpr hvoid)
  obtain ⟨w', hrun, hrows, hidentities⟩ := hdisable
  have hturn : exec (applyEntry deps (manifest entry target) (plan deps entry target) plannedEntry) ⟨w, []⟩ =
      (.ok .applied, ⟨w', []⟩) := by
    unfold applyEntry
    rw [if_neg (not_or.mpr ⟨nofun, by rw [show plannedEntry.action = .DISABLE from h.action]; nofun⟩), hfind]
    simp only [h.action]
    exact hrun
  let reported := addReport deps (manifest entry target) (plan deps entry target) plannedEntry .applied
    w.directory w.directory w'
  have hreported : reported.directory = w'.directory := by
    unfold reported addReport
    rw [hfind]
  have hloop : exec (applySelected deps (manifest entry target) (plan deps entry target) w.directory
      [plannedEntry]) ⟨w, []⟩ = (.ok [.applied], ⟨reported, []⟩) :=
    exec_bind_eq_ok.mpr ⟨_, _, rfl, exec_bind_eq_ok.mpr ⟨_, _, hturn, exec_bind_eq_ok.mpr ⟨_, _, rfl, rfl⟩⟩⟩
  refine ⟨_, ⟨reported, []⟩, exec_bind_eq_ok.mpr ⟨(), ⟨w, []⟩, ?_, exec_bind_eq_ok.mpr
    ⟨_, _, h.exec_plan hproject hkey, exec_bind_eq_ok.mpr ⟨_, ⟨w, []⟩, ?_, exec_bind_eq_ok.mpr
      ⟨_, _, rfl, exec_bind_eq_ok.mpr ⟨_, _, hloop, rfl⟩⟩⟩⟩⟩, rfl, ?_, ?_⟩
  · rw [hcheck]
    rfl
  · rw [show (confirmationOf .DISABLE (plan deps entry target)).action = .DISABLE from rfl, hselect]
    rfl
  · rw [hreported]
    exact hrows
  · rw [hreported]
    exact hidentities

end

end Finishes

/-! ## 4. After a DISABLE in part -/

/-- The entry's user is no super administrator whom the plan protects, and its version can go up. -/
def Report.Recoverable (r : Report) : Prop :=
  ∃ row, findEntryUser r.after.users r.entry = some row ∧ row.authzVersion < 2147483647 ∧
    (row.role ≠ .SUPER_ADMIN ∨ 2 ≤ enabledSuperAdminCount r.after.users)

/-- A manifest that brings both sides to what the entry desires, run on what its turn has left. -/
def Report.CanFinish (deps : AuthDispositionDependencies) (r : Report) : Prop :=
  ∃ input plan, ∀ w : DispositionWorld, w.directory = r.after → ∃ counts w',
    exec (applyAuthDisposition deps input (confirmationOf .DISABLE plan) plan) ⟨w, []⟩ = (.ok counts, w') ∧
      counts.applied = 1 ∧ BothDesired r.entry w'.state.directory

/-- The row and the identity that a DISABLE in part has left. -/
structure LeftBehind (r : Report) (row : AppUserRow) (identity : ProviderIdentity) : Prop where
  user : findEntryUser r.after.users r.entry = some row
  mem : row ∈ r.after.users.rows
  appUserId : r.entry.appUserId = some row.id
  normalizedEmail : row.normalizedEmail = some r.entry.normalizedEmail
  authUserId : row.authUserId = r.entry.expectedLinkedProviderUserId
  identity : findEntryIdentity r.after.identities r.entry = some identity

variable {r : Report} {row : AppUserRow} {identity : ProviderIdentity}

theorem leftBehind (h : IsTurn deps r) (ha : r.entry.action = .DISABLE) (hp : r.outcome = .partially) :
    ∃ row identity user byEmail, LeftBehind r row identity ∧
      FoundIdentity r.after.identities r.entry identity user byEmail := by
  obtain ⟨⟨row, hrow, hrows⟩, identity, user, byEmail, hfound⟩ := partial_disable h ha hp
  refine ⟨atomicRow .DISABLE r.entry row, identity, user, byEmail, ⟨?_, ?_, ?_, ?_, ?_, hfound.found⟩, hfound⟩
  · exact findEntryUser_of_replaced hrow.mem hrow.appUserId (atomicRow_id row) hrows
  · rw [hrows]
    exact mem_replaceRow_self hrow.mem (atomicRow_id row).symm
  · exact hrow.appUserId
  · exact hrow.normalizedEmail
  · exact hrow.authUserId

theorem validEntry_recoveryEntry (hvalid : ValidEntry r.entry) (ha : r.entry.action = .DISABLE)
    (h : LeftBehind r row identity) (hid : isOpaqueId identity.id = true)
    (hversion : row.authzVersion < 2147483647) : ValidEntry (recoveryEntry r.entry row identity) where
  entryId := hvalid.entryId
  appUserId := by
    have hv := hvalid.appUserId
    rwa [h.appUserId] at hv
  providerUserId := hid
  linkedProviderUserId := by
    have hv := hvalid.linkedProviderUserId
    rwa [← h.authUserId] at hv
  authzVersion version hv := by
    have hv : row.authzVersion = version := Option.some.inj hv
    unfold maxSafeInteger
    omega
  hasAppUserId _ := nofun
  hasAuthzVersion := rfl
  hasNoLink := nofun
  hasProviderUserId _ := nofun
  bootstrap hb := by
    cases ha.symm.trans hb
  disable _ := rfl
  normalizedEmail := hvalid.normalizedEmail

/-- The identity that was found, after it has been disabled. -/
theorem findEntryIdentity_disabled (hfound : FoundIdentity identities entry identity user byEmail)
    (hset : (setUserDisabled identity.id true identities).1 = .ok user.id) :
    ∃ identity', findEntryIdentity (setUserDisabled identity.id true identities).2 entry = some identity' ∧
      identity'.disabled = true := by
  obtain ⟨disabled, hfind, hdisabled⟩ := setUserDisabled_eq_ok (Prod.ext hset rfl)
  have hbans := findEntryIdentity_of_sameButBans
    (sameButBans_setUserDisabled identity.id true identities) entry
  rw [hfound.found] at hbans
  obtain ⟨identity', hfound', herase⟩ := Option.map_eq_some_iff.mp hbans
  have hid : identity'.id = identity.id := (ProviderIdentity.mk.inj herase).1
  have hfind' := Identities.find_of_mem (mem_of_findEntryIdentity hfound')
  rw [hid] at hfind'
  cases hfind.symm.trans hfind'
  exact ⟨_, hfound', hdisabled⟩

/-- **A DISABLE in part can be finished**, but for a super administrator whom the plan protects. -/
theorem canFinish_of_partial (h : IsTurn deps r) (ha : r.entry.action = .DISABLE)
    (hp : r.outcome = .partially) (hrec : r.Recoverable) : r.CanFinish deps := by
  obtain ⟨row, identity, user, byEmail, hleft, hfound⟩ := leftBehind h ha hp
  obtain ⟨row', hrow', hversion, hspare⟩ := hrec
  cases hleft.user.symm.trans hrow'
  have hfinds := Identities.find_of_mem (mem_of_findEntryIdentity hfound.found)
  have hvalid := validEntry_recoveryEntry h.valid ha hleft (mapSupabaseUser_eq_ok hfound.mapped).1 hversion
  let target : CloudTargetBinding := ⟨deps.projectRef, "", ""⟩
  refine ⟨Finishes.manifest (recoveryEntry r.entry row identity) target,
    Finishes.plan deps (recoveryEntry r.entry row identity) target, fun w hw => ?_⟩
  have hfinishes : Finishes w.directory (recoveryEntry r.entry row identity) row identity user byEmail := by
    rw [hw]
    exact ⟨hvalid, ha, ⟨hleft.mem, rfl, hleft.normalizedEmail, rfl, rfl⟩, otherRole_ne row.role, hspare,
      hversion, rfl, ⟨findEntryIdentity_of_find rfl hfinds, hfound.mapped, hfound.email, hfound.verified,
        hfound.searched, hfound.agrees⟩⟩
  have hproject : deps.projectRef = target.projectRef := rfl
  have hvoid : deps.ReadsVoid := h.readsVoid (.inl ha) (h.planned_of_partial hp)
  obtain ⟨counts, w', hrun, happlied, hrows, hidentities⟩ := hfinishes.exec_apply hproject h.keyId hvoid
  rw [hw] at hrows hidentities
  refine ⟨counts, w', hrun, happlied, _,
    findEntryUser_of_replaced hleft.mem hleft.appUserId (atomicRow_id row) hrows, hleft.normalizedEmail, ?_⟩
  rw [if_pos ha, hidentities]
  exact ⟨rfl, findEntryIdentity_disabled hfound (hw ▸ hfinishes.setUserDisabled_ok)⟩

/-! ## 5. Any sequence of runs -/

/-- What a run of `applyAuthDisposition` is given. -/
structure DispositionRun where
  input : AuthDispositionInput
  confirmation : AuthDispositionApplyConfirmation
  expectedPlan : AuthDispositionPlan

def runAll (deps : AuthDispositionDependencies) (runs : List DispositionRun)
    (w : Remote String DispositionWorld) : Remote String DispositionWorld :=
  runs.foldl (fun w run =>
    (exec (applyAuthDisposition deps run.input run.confirmation run.expectedPlan) w).2) w

theorem turns_runAll (runs : List DispositionRun) (w : Remote String DispositionWorld) :
    Turns deps w.state (runAll deps runs w).state := by
  induction runs generalizing w with
  | nil => exact refl_of (Turns deps) w.state
  | cons run rest ih =>
    exact trans_of (Turns deps)
      (turns_applyAuthDisposition deps run.input run.confirmation run.expectedPlan w) (ih _)

/-- **Every report is true**, in any sequence of runs and whatever becomes of their calls, where its
    turn finds what it has to find; and a DISABLE in part can be finished. Where the client does
    not read the answer of a lock, nothing is counted but what the plan has counted. -/
theorem reported_outcome_true (deps : AuthDispositionDependencies) (runs : List DispositionRun)
    (w : Remote String DispositionWorld) (hnew : w.state.reports = []) :
    ∀ r ∈ (runAll deps runs w).state.reports,
      ((r.entry.action = .DISABLE ∨ r.entry.action = .LINK ∨ r.entry.action = .RE_INVITE) →
        r.outcome ≠ .partially → r.Grounded → BothDesired r.entry r.after) ∧
      (r.entry.action = .DISABLE → r.outcome = .partially → r.Recoverable → r.CanFinish deps) ∧
      ((r.entry.action = .DISABLE ∨ r.entry.action = .LINK ∨ r.entry.action = .RE_INVITE) →
        ¬ deps.ReadsVoid → r.planned = .UNCHANGED) := by
  intro r hr
  obtain ⟨reports, hreports, hturns⟩ := @turns_runAll deps runs w
  rw [hreports, hnew] at hr
  have hturn := hturns r hr
  exact ⟨hturn.bothDesired, canFinish_of_partial hturn, fun ha hvoid =>
    not_not.mp fun hu => hvoid (hturn.readsVoid ha hu)⟩

/-! ### An identity that stays enabled -/

/-- A user with a linked identity. -/
def lee : AppUserRow where
  id := "c3333333-3333-4333-8333-333333333333"
  email := some "lee@example.com"
  normalizedEmail := some "lee@example.com"
  role := .USER
  isActive := true
  inviteStatus := .ACTIVE
  authUserId := some "d4444444-4444-4444-8444-444444444444"
  invitationRequestId := none
  authzVersion := 1

def leeIdentity : ProviderIdentity where
  id := "d4444444-4444-4444-8444-444444444444"
  email := some "lee@example.com"
  emailVerified := true
  disabled := false
  maintenance_invite_owner := none

/-- Kim and Lee. The first three calls plan and the fourth writes; the provider refuses the fifth. -/
def kimAndLee : Remote String DispositionWorld where
  state :=
    { directory :=
        { users := ⟨[kim, lee], by decide +kernel⟩
          identities := ⟨[leeIdentity], by decide +kernel, []⟩ }
      journal := []
      commits := []
      reports := [] }
  fates := [.answered, .answered, .answered, .answered, .refused "unavailable"]

section

variable (version : Nat) (desiredRole : AppRole)

def disableLee : AuthDispositionInput where
  manifestId := "manifest-0001"
  target := ⟨"abcdefghijklmnopqrst", "0a1b2c", "9f8e7d"⟩
  entries :=
    [{ entryId := "entry-0001"
       action := .DISABLE
       appUserId := some "c3333333-3333-4333-8333-333333333333"
       normalizedEmail := "lee@example.com"
       providerUserId := some "d4444444-4444-4444-8444-444444444444"
       expectedLinkedProviderUserId := some "d4444444-4444-4444-8444-444444444444"
       expectedAuthzVersion := some version
       desiredRole
       desiredActive := false }]

def disableLeePlan : AuthDispositionPlan :=
  dispositionPlan plainDependencies (disableLee version desiredRole)
    [⟨"entry-0001", .DISABLE, .READY, "AUTH_DISABLE_READY"⟩]

def disableLeeRun : DispositionRun where
  input := disableLee version desiredRole
  confirmation := confirmationOf .DISABLE (disableLeePlan version desiredRole)
  expectedPlan := disableLeePlan version desiredRole

end

theorem reported_outcome_true_lee :
    let runs := [disableLeeRun 1 .USER, disableLeeRun 2 .GUEST]
    kimAndLee.state.reports = [] ∧
      (runAll plainDependencies runs kimAndLee).state.reports.map (·.outcome) = [.partially, .applied] ∧
      ∀ r ∈ (runAll plainDependencies runs kimAndLee).state.reports,
        ((r.entry.action = .DISABLE ∨ r.entry.action = .LINK ∨ r.entry.action = .RE_INVITE) →
          r.outcome ≠ .partially → r.Grounded → BothDesired r.entry r.after) ∧
        (r.entry.action = .DISABLE → r.outcome = .partially → r.Recoverable →
          r.CanFinish plainDependencies) ∧
        ((r.entry.action = .DISABLE ∨ r.entry.action = .LINK ∨ r.entry.action = .RE_INVITE) →
          ¬ plainDependencies.ReadsVoid → r.planned = .UNCHANGED) :=
  ⟨rfl, by decide +kernel, reported_outcome_true plainDependencies _ kimAndLee rfl⟩

instance (entry : AuthDispositionEntry) (directory : Directory) : Decidable (BothDesired entry directory) :=
  match h : findEntryUser directory.users entry with
  | none => .isFalse fun ⟨_, hr, _⟩ => nomatch h.symm.trans hr
  | some row =>
    decidable_of_iff (row.normalizedEmail = some entry.normalizedEmail ∧
      if entry.action = .DISABLE then
        row.isActive = false ∧
          (findEntryIdentity directory.identities entry).any (·.disabled) = true
      else row.role = entry.desiredRole ∧ row.isActive = entry.desiredActive ∧
        ∃ identity ∈ directory.identities.rows, row.authUserId = some identity.id ∧
          hasEmail entry.normalizedEmail identity = true)
      (by simp [BothDesired, h, Option.any_eq_true])

/-- **Unchanged, and still enabled**: the first DISABLE writes the row and the provider refuses. The
    manifest issued again for the new version is counted as unchanged, and asks the provider for
    nothing. -/
theorem disable_reported_unchanged :
    ¬ ∀ (deps : AuthDispositionDependencies) (runs : List DispositionRun)
      (w : Remote String DispositionWorld), deps.ReadsVoid → w.state.reports = [] →
        ∀ r ∈ (runAll deps runs w).state.reports,
          (r.entry.action = .DISABLE ∨ r.entry.action = .LINK ∨ r.entry.action = .RE_INVITE) →
            r.outcome ≠ .partially → BothDesired r.entry r.after := by
  intro h
  have hall := h plainDependencies [disableLeeRun 1 .USER, disableLeeRun 2 .USER] kimAndLee rfl rfl
  revert hall
  decide +kernel

end AdsManagement.Maintenance
