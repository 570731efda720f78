/-
  File:      Users/InvitationSafety.lean
  Subject:   THE STATE MACHINE OF INVITATIONS IS SAFE over every interleaving of calls.

  Each transaction reads its row under the lock and either leaves the table alone or replaces that
  row; what it has checked of the row is enough to say which change of status it makes and that
  the subject it writes belongs to no other row. The steps are then one table write each.

  * the `_cases` lemmas -- what each transaction has found and what it writes;
  * `UserChange`, `TableChange` -- what any of them may do to a row and to the table;
  * `InvitationStep.tableChange` -- every step is such a change;
  * `InvitationStep.onlyOwnRow` -- a result is written on the row and the request of its attempt;
  * `invitations_safe` -- over every reachable world.
-/
import AdsManagement.Lib.LastOfKind
import AdsManagement.Users.InvitationSteps

namespace AdsManagement.Users

open List

/-! ## 1. The table -/

variable {users : List AppUser} {u : AppUser} {id : String}

theorem findById_eq_some (h : findById users id = some u) : u ∈ users ∧ u.id = id :=
  ⟨mem_of_find?_eq_some h, by simpa using find?_some h⟩

theorem findById_of_mem (hn : (users.map AppUser.id).Nodup) (hu : u ∈ users) :
    findById users u.id = some u := by
  induction users with
  | nil => cases hu
  | cons v users ih =>
    rw [map_cons, nodup_cons] at hn
    rcases mem_cons.mp hu with rfl | hu
    · simp [findById]
    · have hne : v.id ≠ u.id := fun he => hn.1 (he ▸ mem_map_of_mem hu)
      have ih := ih hn.2 hu
      simpa [findById, hne] using ih

variable {v : AppUser}

/-- The row of an id is the only one. -/
theorem eq_of_id_eq (hn : (users.map AppUser.id).Nodup) (hu : u ∈ users) (hv : v ∈ users) (h : u.id = v.id) :
    u = v := by
  have h1 := findById_of_mem hn hu
  have h2 := findById_of_mem hn hv
  rw [h, h2] at h1
  exact (Option.some.inj h1).symm

@[simp] theorem putUser_ids (now : Nat) (user : AppUser) (users : List AppUser) :
    (putUser now user users).map AppUser.id = users.map AppUser.id := by
  unfold putUser
  rw [map_map]
  refine map_congr_left fun u _ => ?_
  by_cases h : u.id = user.id <;> simp [h]

variable {now : Nat} {user : AppUser}

theorem mem_putUser (h : v ∈ putUser now user users) :
    v = { user with updatedAt := now } ∨ v ∈ users ∧ v.id ≠ user.id := by
  obtain ⟨u, hu, rfl⟩ := mem_map.mp h
  by_cases hid : u.id = user.id
  · exact .inl (if_pos hid)
  · rw [if_neg hid]
    exact .inr ⟨hu, hid⟩

theorem mem_putUser_of_ne (hu : u ∈ users) (h : u.id ≠ user.id) : u ∈ putUser now user users :=
  mem_map.mpr ⟨u, hu, if_neg h⟩

theorem mem_putUser_self (hu : u ∈ users) (h : u.id = user.id) :
    { user with updatedAt := now } ∈ putUser now user users :=
  mem_map.mpr ⟨u, hu, if_pos h⟩

variable {s : String}

theorem findBySubject_isSome (hu : u ∈ users) (hs : u.authUserId = some s) :
    ∃ v ∈ users, findBySubject users s = some v ∧ v.authUserId = some s := by
  have h : (findBySubject users s).isSome := by
    unfold findBySubject
    rw [find?_isSome]
    exact ⟨u, hu, by simpa using hs⟩
  obtain ⟨v, hv⟩ := Option.isSome_iff_exists.mp h
  exact ⟨v, mem_of_find?_eq_some hv, hv, by simpa using find?_some hv⟩

/-- A subject nobody else has. -/
theorem not_subjectTaken (hc : UniqueColumns users) (h : subjectTaken users s id = false) (hv : v ∈ users)
    (hs : v.authUserId = some s) :
    v.id = id := by
  obtain ⟨owner, ho, hf, hos⟩ := findBySubject_isSome hv hs
  have hid : owner.id = id := by simpa [subjectTaken, hf] using h
  rw [← hid]
  exact hc.subjects v hv owner ho (hs.trans hos.symm) (by simp [hs])

/-! ## 2. What the transactions find and write -/

variable {users' : List AppUser}
variable {invitation : Invitation}

theorem createInvitation_cases (h : createInvitation invitation id now users = .ok users') :
    findById users id = none ∧ findByEmail users invitation.normalizedEmail = none ∧
      findByRequest users invitation.requestId = none ∧
      users' = users ++ [invitation.newUser id now] := by
  unfold createInvitation at h
  split at h
  · cases h
  · rename_i hc
    cases h
    simp only [Bool.or_eq_true, not_or, Option.not_isSome_iff_eq_none] at hc
    exact ⟨hc.1.1, hc.1.2, hc.2, rfl⟩

theorem restartInvitation_cases {ownerId : String}
    (h : restartInvitation invitation ownerId now users = .ok (some users')) :
    ∃ locked, findById users ownerId = some locked ∧ canRestartCancelledInvitation locked = true ∧
      locked.invitationRequestId ≠ some invitation.requestId ∧
      findByRequest users invitation.requestId = none ∧
      users' = putUser now (invitation.restarted locked) users := by
  unfold restartInvitation at h
  split at h
  · cases h
  · rename_i locked hl
    split at h
    · split at h <;> cases h
    · rename_i hr
      split at h
      · cases h
      · rename_i hcan
        split at h
        · cases h
        · rename_i hfree
          cases h
          exact ⟨locked, hl, by simpa using hcan, hr, by simpa using hfree, rfl⟩

theorem claimRetry_cases {email : Option String} (h : claimRetry id now users = .ok (email, users')) :
    ∃ locked, findById users id = some locked ∧ locked.inviteStatus = .RECONCILE_REQUIRED ∧
      locked.authUserId = none ∧
      locked.invitationErrorCode = some .INVITATION_PROVIDER_UNAVAILABLE ∧
      email = locked.normalizedEmail ∧
      users' = putUser now
        { locked with
          inviteStatus := .PENDING_PROVIDER
          invitationErrorCode := some .INVITATION_RETRY_IN_PROGRESS } users := by
  unfold claimRetry at h
  split at h
  · cases h
  · rename_i locked hl
    split at h
    · cases h
    · rename_i hc
      split at h
      · cases h
      · cases h
        simp only [not_or, not_not, Bool.not_eq_true, isRetryableInvitationFailure,
          Bool.not_eq_false', Bool.and_eq_true, decide_eq_true_eq] at hc
        exact ⟨locked, hl, hc.2.1, by simpa using hc.1, hc.2.2.2, rfl, rfl⟩

/-- **A cancel**: the row was cancelled already, or becomes so. -/
theorem cancelInvitation_cases {cancelled : AppUser}
    (h : cancelInvitation id now users = .ok (cancelled, users')) :
    ∃ locked, findById users id = some locked ∧
      (locked.inviteStatus = .CANCELLED ∧ cancelled = locked ∧ users' = users ∨
        isCancellableInvitationStatus locked.inviteStatus = true ∧
        canTransitionInvitation locked.inviteStatus .CANCELLED = true ∧
        cancelled.invitationErrorCode =
          (if locked.authUserId.isSome then some .INVITATION_PROVIDER_COMPENSATION_REQUIRED else none) ∧
        users' = putUser now
          { locked with
            inviteStatus := .CANCELLED
            isActive := false
            invitationErrorCode :=
              if locked.authUserId.isSome then some .INVITATION_PROVIDER_COMPENSATION_REQUIRED
              else none } users) := by
  unfold cancelInvitation at h
  split at h
  · cases h
  · rename_i locked hl
    refine ⟨locked, hl, ?_⟩
    split at h
    · rename_i hc
      cases h
      exact .inl ⟨hc.1, rfl, rfl⟩
    · split at h
      · cases h
      · rename_i hc
        split at h
        · cases h
        · rename_i ht
          cases h
          simp only [Bool.or_eq_true, not_or, Bool.not_eq_true, Bool.not_eq_false'] at hc
          exact .inr ⟨hc.1.1.1, by simpa using ht, rfl, rfl⟩

variable {providerUserId : String} {attempt : Attempt}

theorem commitInvitation_cases (h : commitInvitation attempt providerUserId now users = .ok users') :
    ∃ current, findById users attempt.userId = some current ∧
      current.inviteStatus = .PENDING_PROVIDER ∧
      current.invitationRequestId = some attempt.requestId ∧
      current.invitationErrorCode = some attempt.kind.inProgress ∧
      subjectTaken users providerUserId current.id = false ∧
      users' = putUser now
        { current with
          authUserId := some providerUserId
          inviteStatus := .INVITED
          invitationErrorCode := none
          isActive := if attempt.kind = .retry then true else current.isActive } users := by
  unfold commitInvitation at h
  simp only at h
  split at h
  · cases h
  · rename_i current hc
    split at h
    · cases h
    · rename_i hg
      split at h
      · cases h
      · rename_i hs
        split at h
        · cases h
        · cases h
          simp only [not_or, not_not] at hg
          exact ⟨current, hc, hg.1, hg.2.1, hg.2.2, by simpa using hs, rfl⟩

theorem markInvitationFailure_cases (attempt : Attempt) (errorCode : InvitationErrorCode) (now : Nat)
    (users : List AppUser) :
    markInvitationFailure attempt errorCode now users = users ∨
      ∃ before, findById users attempt.userId = some before ∧ before.inviteStatus = .PENDING_PROVIDER ∧
        before.invitationRequestId = some attempt.requestId ∧
        markInvitationFailure attempt errorCode now users = putUser now
          { before with inviteStatus := .RECONCILE_REQUIRED, invitationErrorCode := some errorCode }
          users := by
  unfold markInvitationFailure
  split
  · exact .inl rfl
  · rename_i before hb
    split
    · exact .inl rfl
    · rename_i hg
      split
      · exact .inl rfl
      · simp only [not_or, not_not] at hg
        exact .inr ⟨before, hb, hg.1, hg.2.1, rfl⟩

/-- **A local failure**: the row is no longer the attempt's, or gets the subject, or keeps its own
    where another row has the subject. -/
theorem markProviderSucceededLocalFailure_cases (attempt : Attempt) (authUserId : String) (now : Nat)
    (users : List AppUser) :
    (∀ before, findById users attempt.userId = some before →
        before.inviteStatus ≠ .PENDING_PROVIDER ∨ before.invitationRequestId ≠ some attempt.requestId) ∧
      markProviderSucceededLocalFailure attempt authUserId now users = users ∨
    ∃ before, findById users attempt.userId = some before ∧ before.inviteStatus = .PENDING_PROVIDER ∧
      before.invitationRequestId = some attempt.requestId ∧
      markProviderSucceededLocalFailure attempt authUserId now users = putUser now
        { before with
          authUserId :=
            if subjectTaken users authUserId before.id then before.authUserId else some authUserId
          inviteStatus := .RECONCILE_REQUIRED
          invitationErrorCode := some
            (if subjectTaken users authUserId before.id then .INVITATION_PROVIDER_SUBJECT_CONFLICT
             else .INVITATION_LOCAL_COMMIT_FAILED) } users := by
  unfold markProviderSucceededLocalFailure
  split
  · next hb => exact .inl ⟨fun before h => absurd (hb.symm.trans h) nofun, rfl⟩
  · rename_i before hb
    split
    · rename_i hg
      refine .inl ⟨fun b h => ?_, rfl⟩
      cases hb.symm.trans h
      exact hg
    · rename_i hg
      simp only [not_or, not_not] at hg
      split
      · rename_i ht
        rw [hg.1] at ht
        cases ht
      · exact .inr ⟨before, hb, hg.1, hg.2, rfl⟩

/-- **A late identity**: the row is not the attempt's cancelled row, or has another subject, or the
    subject is another row's; else it is attached. -/
theorem attachCancelledIdentity_cases (attempt : Attempt) (providerUserId : String) (now : Nat)
    (users : List AppUser) :
    attachCancelledIdentity attempt providerUserId now users = (false, users) ∧
      (∀ cancelled, findById users attempt.userId = some cancelled →
        cancelled.inviteStatus ≠ .CANCELLED ∨ cancelled.invitationRequestId ≠ some attempt.requestId ∨
        cancelled.normalizedEmail ≠ some attempt.normalizedEmail ∨
        (∃ other, cancelled.authUserId = some other ∧ other ≠ providerUserId) ∨
        subjectTaken users providerUserId cancelled.id = true) ∨
    ∃ cancelled, findById users attempt.userId = some cancelled ∧ cancelled.inviteStatus = .CANCELLED ∧
      cancelled.invitationRequestId = some attempt.requestId ∧
      (∀ other, cancelled.authUserId = some other → other = providerUserId) ∧
      subjectTaken users providerUserId cancelled.id = false ∧
      attachCancelledIdentity attempt providerUserId now users = (true, putUser now
        { cancelled with
          authUserId := some providerUserId
          invitationErrorCode := some .INVITATION_PROVIDER_COMPENSATION_REQUIRED } users) := by
  unfold attachCancelledIdentity
  split
  · next hb => exact .inl ⟨rfl, fun before h => absurd (hb.symm.trans h) nofun⟩
  · rename_i cancelled hb
    split
    · rename_i hg
      refine .inl ⟨rfl, fun c h => ?_⟩
      cases hb.symm.trans h
      rcases hg with hg | hg | hg
      · exact .inl hg
      · exact .inr (.inl hg)
      · exact .inr (.inr (.inl hg))
    · rename_i hg
      simp only [not_or, not_not] at hg
      split
      · rename_i ha
        refine .inl ⟨rfl, fun c h => ?_⟩
        cases hb.symm.trans h
        rw [Option.any_eq_true] at ha
        obtain ⟨other, ho, hne⟩ := ha
        exact .inr (.inr (.inr (.inl ⟨other, ho, by simpa using hne⟩)))
      · rename_i ha
        split
        · rename_i ht
          refine .inl ⟨rfl, fun c h => ?_⟩
          cases hb.symm.trans h
          exact .inr (.inr (.inr (.inr ht)))
        · rename_i ht
          refine .inr ⟨cancelled, hb, hg.1, hg.2.1, fun other ho => ?_, by simpa using ht, rfl⟩
          simpa [ho] using ha

theorem finishCompensation_cases (pending : AppUser) (succeeded : Bool) (now : Nat) (users : List AppUser) :
    finishCompensation pending succeeded now users = users ∨
      ∃ locked, findById users pending.id = some locked ∧ locked.inviteStatus = .CANCELLED ∧
        locked.authUserId = pending.authUserId ∧
        locked.invitationRequestId = pending.invitationRequestId ∧
        finishCompensation pending succeeded now users = putUser now
          (if succeeded then { locked with authUserId := none, invitationErrorCode := none }
           else { locked with invitationErrorCode := some .INVITATION_PROVIDER_COMPENSATION_REQUIRED })
          users := by
  unfold finishCompensation
  split
  · exact .inl rfl
  · rename_i locked hl
    split
    · exact .inl rfl
    · rename_i hg
      simp only [not_or, not_not] at hg
      exact .inr ⟨locked, hl, hg.1, hg.2.1, hg.2.2, rfl⟩

variable {usable : Bool}

theorem acceptInvitation_cases {candidateId : String} {session : ProviderUser}
    (h : acceptInvitation candidateId session usable now users = .ok users') :
    ∃ user, findById users candidateId = some user ∧ user.inviteStatus = .INVITED ∧
      users' = putUser now
        { user with inviteStatus := .VERIFIED_PENDING_PASSWORD, invitationErrorCode := none } users := by
  unfold acceptInvitation at h
  split at h
  · cases h
  · rename_i user hu
    split at h
    · cases h
    · rename_i hg
      cases h
      simp only [not_or, not_not] at hg
      exact ⟨user, hu, hg.2.1, rfl⟩

theorem markAcceptCommitFailure_cases (candidateId authUserId : String) (now : Nat)
    (users : List AppUser) :
    markAcceptCommitFailure candidateId authUserId now users = users ∨
      ∃ user, findById users candidateId = some user ∧ user.inviteStatus = .INVITED ∧
        markAcceptCommitFailure candidateId authUserId now users = putUser now
          { user with
            inviteStatus := .RECONCILE_REQUIRED
            invitationErrorCode := some .INVITATION_ACCEPT_LOCAL_COMMIT_FAILED } users := by
  unfold markAcceptCommitFailure
  split
  · exact .inl rfl
  · rename_i user hu
    split
    · exact .inl rfl
    · rename_i hg
      simp only [not_or, not_not] at hg
      exact .inr ⟨user, hu, hg.2.1, rfl⟩

theorem completeInitialPassword_cases {principalId : String}
    (h : completeInitialPassword principalId providerUserId usable now users = .ok users') :
    ∃ user, findById users principalId = some user ∧ user.inviteStatus = .VERIFIED_PENDING_PASSWORD ∧
      users' = putUser now { user with inviteStatus := .ACTIVE, invitationErrorCode := none } users := by
  unfold completeInitialPassword at h
  split at h
  · cases h
  · rename_i user hu
    split at h
    · cases h
    · rename_i hg
      cases h
      simp only [not_or, not_not] at hg
      exact ⟨user, hu, hg.2.2.2.1, rfl⟩

theorem updateProfile_cases {actorId : String} {body : ProfileChange}
    (h : updateProfile id actorId body now users = .ok users') :
    ∃ current, findById users id = some current ∧ users' = putUser now
      { current with
        name := body.name.getD current.name
        role := body.role.getD current.role
        isActive := body.isActive.getD current.isActive } users := by
  unfold updateProfile updateRow at h
  split at h
  · cases h
  · split at h
    · cases h
    · rename_i current hc
      simp only at h
      split at h
      · cases h
      · split at h
        · cases h
        · split at h
          · cases h
          · cases h
            exact ⟨current, hc, rfl⟩

/-! ## 3. Changes -/

/-- A change of status along the state machine, or the restart of a cancelled row. -/
def StatusChange (before after : AppUser) : Prop :=
  canTransitionInvitation before.inviteStatus after.inviteStatus = true ∨
    canRestartCancelledInvitation before = true ∧ after.inviteStatus = .PENDING_PROVIDER

/-- What a transaction may do to a row. -/
structure UserChange (users : List AppUser) (before after : AppUser) : Prop where
  id : after.id = before.id
  status : StatusChange before after
  subject : after.authUserId = before.authUserId ∨ after.authUserId = none ∨
    ∃ s, after.authUserId = some s ∧ subjectTaken users s before.id = false

/-- What a step may do to the table, with a condition on the row that is replaced. -/
inductive TableChange (P : AppUser → Prop) (users : List AppUser) : List AppUser → Prop
  | same : TableChange P users users
  | put (now : Nat) {before after : AppUser} (hf : findById users before.id = some before) (hp : P before)
      (hc : UserChange users before after) : TableChange P users (putUser now after users)
  | insert {new : AppUser} (hf : findById users new.id = none) (hs : new.authUserId = none) :
      TableChange P users (users ++ [new])

variable {P : AppUser → Prop}

theorem TableChange.of_eq (h : users' = users) : TableChange P users users' := h ▸ .same

theorem findById_eq_none (h : findById users id = none) : ∀ u ∈ users, u.id ≠ id := by
  intro u hu
  have := find?_eq_none.mp h u hu
  simpa using this

/-- A row that is replaced shares its new subject with no other row. -/
theorem UniqueColumns.put {users : List AppUser} (hu : UniqueColumns users) (now : Nat) {after : AppUser}
    (key : ∀ v ∈ users, v.id ≠ after.id → after.authUserId = v.authUserId → v.authUserId = none) :
    UniqueColumns (putUser now after users) := by
  refine ⟨by rw [putUser_ids]; exact hu.ids, fun u hu' v hv' he hn => ?_⟩
  rcases mem_putUser hu' with rfl | ⟨hu', hid⟩ <;> rcases mem_putUser hv' with rfl | ⟨hv', hid'⟩
  · rfl
  · exact absurd (he.trans (key v hv' hid' he)) hn
  · exact absurd (key u hu' hid he.symm) hn
  · exact hu.subjects u hu' v hv' he hn

theorem UniqueColumns.insert {users : List AppUser} (hu : UniqueColumns users) {new : AppUser}
    (hf : findById users new.id = none) (hs : new.authUserId = none) : UniqueColumns (users ++ [new]) := by
  have hfresh := findById_eq_none hf
  constructor
  · exact Lib.nodup_map_concat hu.ids hfresh
  · intro u hu' v hv' he hn
    rcases mem_append.mp hu' with hu' | hu' <;> rcases mem_append.mp hv' with hv' | hv'
    · exact hu.subjects u hu' v hv' he hn
    · rw [mem_singleton.mp hv'] at he
      exact absurd (he.trans hs) hn
    · rw [mem_singleton.mp hu'] at hn
      exact absurd hs hn
    · rw [mem_singleton.mp hu', mem_singleton.mp hv']

theorem TableChange.uniqueColumns (hu : UniqueColumns users) (h : TableChange P users users') :
    UniqueColumns users' := by
  cases h with
  | same => exact hu
  | @put now before after hf hp hc =>
    refine hu.put now fun v hv hne he => ?_
    by_contra hn
    refine hne ?_
    rw [hc.id]
    rcases hc.subject with hs | hs | ⟨s, hs, ht⟩
    · exact hu.subjects v hv before (findById_eq_some hf).1 (he.symm.trans hs) hn
    · exact absurd (he.symm.trans hs) hn
    · exact not_subjectTaken hu ht hv (he.symm.trans hs)
  | insert hf hs => exact hu.insert hf hs

variable {u' : AppUser}

/-- **A row before and after**: it is the same, or it met the condition and changed as allowed. -/
theorem TableChange.row (hu : UniqueColumns users) (h : TableChange P users users') (hmem : u ∈ users)
    (hmem' : u' ∈ users') (hid : u'.id = u.id) : u' = u ∨ P u ∧ StatusChange u u' := by
  cases h with
  | same => exact .inl (eq_of_id_eq hu.ids hmem' hmem hid)
  | @put now before after hf hp hc =>
    rcases mem_putUser hmem' with rfl | ⟨hmem', -⟩
    · have he : before = u :=
        eq_of_id_eq hu.ids (findById_eq_some hf).1 hmem (hc.id.symm.trans hid)
      subst he
      exact .inr ⟨hp, hc.status⟩
    · exact .inl (eq_of_id_eq hu.ids hmem' hmem hid)
  | @insert new hf hs =>
    rcases mem_append.mp hmem' with hmem' | hmem'
    · exact .inl (eq_of_id_eq hu.ids hmem' hmem hid)
    · rw [mem_singleton.mp hmem'] at hid
      exact absurd hid.symm (findById_eq_none hf u hmem)

/-- No row is lost. -/
theorem TableChange.ids_subset (h : TableChange P users users') :
    ∀ u ∈ users, ∃ u' ∈ users', u'.id = u.id := by
  intro u hu
  have hmem : u.id ∈ users.map AppUser.id := mem_map_of_mem hu
  cases h with
  | same => exact ⟨u, hu, rfl⟩
  | @put now before after hf hp hc =>
    rw [← putUser_ids now after users] at hmem
    obtain ⟨u', hu', he⟩ := mem_map.mp hmem
    exact ⟨u', hu', he⟩
  | insert hf hs => exact ⟨u, mem_append_left _ hu, rfl⟩

/-! ## 4. Steps and runs -/

/-- The row carries the request whose result the next step of the call writes. -/
def Fence (phase : CallPhase) (u : AppUser) : Prop :=
  ∀ id request, phase.result = some (id, request) → u.id = id ∧ u.invitationRequestId = request

variable {phase : CallPhase}

theorem fence_of_none (h : phase.result = none) (u : AppUser) : Fence phase u :=
  fun _ _ hr => absurd (h.symm.trans hr) nofun

theorem fence_of_some {request : Option String} (h : phase.result = some (id, request)) (hid : u.id = id)
    (hr : u.invitationRequestId = request) :
    Fence phase u := by
  intro id' request' h'
  cases h.symm.trans h'
  exact ⟨hid, hr⟩

variable {before after : AppUser}

/-- A transaction that replaces the row it has found. -/
theorem tableChange_put (now : Nat) (hf : findById users id = some before) (hp : P before)
    (hc : UserChange users before after) :
    TableChange P users (putUser now after users) := by
  rw [← (findById_eq_some hf).2] at hf
  exact .put now hf hp hc

variable {π : Type} [DecidableEq π]
variable {w w' : InvitationWorld π} {event : InvitationEvent}

/-- The step is one of the call. -/
def InvitationWorld.moved (w w' : InvitationWorld π) (p : π) : Prop := w'.phase p ≠ w.phase p

/-- The next transaction of the call finds the row of the user as it has to be, and writes
    `isActive = true` on it whatever the flag says: the restart of a cancelled row, or the last
    transaction of a retry. -/
def CallPhase.reactivates (user : String) (users : List AppUser) : CallPhase → Prop
  | .restarting invitation ownerId =>
    ownerId = user ∧ findByRequest users invitation.requestId = none ∧
      ∃ row, findById users user = some row ∧ canRestartCancelledInvitation row = true ∧
        row.invitationRequestId ≠ some invitation.requestId
  | .committing attempt providerUserId =>
    attempt.userId = user ∧ attempt.kind = .retry ∧ subjectTaken users providerUserId user = false ∧
      ∃ row, findById users user = some row ∧ row.inviteStatus = .PENDING_PROVIDER ∧
        row.invitationRequestId = some attempt.requestId ∧
        row.invitationErrorCode = some .INVITATION_RETRY_IN_PROGRESS
  | _ => False

/-- `update` of the user with `isActive = true`. -/
def CallPhase.activates (user : String) : CallPhase → Prop
  | .updating id _ body => id = user ∧ body.isActive = some true
  | _ => False

variable {p : π}

theorem write_moved (h : w.phase p ≠ phase) (users : List AppUser) : w.moved (w.write p users phase) p := by
  intro he
  refine h (he.symm.trans ?_)
  simp [InvitationWorld.write, InvitationWorld.goto]

/-- **What a step of a call does to the table**: nothing, a new row, or a change of the row it has
    found. -/
inductive CallWrite (w w' : InvitationWorld π) (p : π) : Prop
  | same (he : w'.users = w.users)
  | insert {new : AppUser} (hf : findById w.users new.id = none) (hs : new.authUserId = none)
      (he : w'.users = w.users ++ [new])
  | put {id : String} {before after : AppUser} (hf : findById w.users id = some before)
      (he : w'.users = putUser w.now after w.users) (hfence : Fence (w.phase p) before)
      (hc : UserChange w.users before after)
      -- an ACTIVE row is left to `update`
      (hactive : before.inviteStatus = .ACTIVE → ∃ id actorId body, w.phase p = .updating id actorId body)
      (hflag : before.isActive = false → after.isActive = false ∨
        w.moved w' p ∧ ((w.phase p).activates before.id ∨ (w.phase p).reactivates before.id w.users))

omit [DecidableEq π] in
/-- A change of a row that is not ACTIVE, and of what is not the flag. -/
theorem CallWrite.transaction (hf : findById w.users id = some before)
    (he : w'.users = putUser w.now after w.users) (hfence : Fence (w.phase p) before)
    (hst : before.inviteStatus ≠ .ACTIVE) (ht : StatusChange before after) (hid : after.id = before.id)
    (hsub : after.authUserId = before.authUserId ∨ after.authUserId = none ∨
      ∃ s, after.authUserId = some s ∧ subjectTaken w.users s before.id = false)
    (hflag : before.isActive = false → after.isActive = false) : CallWrite w w' p :=
  .put hf he hfence ⟨hid, ht, hsub⟩ (fun h => absurd h hst) fun h => .inl (hflag h)

theorem callWrite_commit {x : String} (h : w.phase p = .committing attempt x)
    (hne : CallPhase.committing attempt x ≠ phase)
    (hc : commitInvitation attempt x w.now w.users = .ok users) :
    CallWrite w (w.write p users phase) p := by
  obtain ⟨current, hf, hst, hr, hcode, ht, rfl⟩ := commitInvitation_cases hc
  have hid := (findById_eq_some hf).2
  refine .put hf rfl (fence_of_some (by rw [h]; rfl) hid hr)
    ⟨rfl, .inl (by rw [hst]; rfl), .inr (.inr ⟨x, rfl, ht⟩)⟩ (fun ha => ?_) fun hoff => ?_
  · rw [hst] at ha
    cases ha
  · by_cases hk : attempt.kind = .retry
    · rw [hk] at hcode
      refine .inr ⟨write_moved (h ▸ hne) _, .inr ?_⟩
      rw [h]
      exact ⟨hid.symm, hk, ht, current, hid ▸ hf, hst, hr, hcode⟩
    · exact .inl ((if_neg hk).trans hoff)

/-- **Every step of a call** is such a write. -/
theorem InvitationStep.callWrite (hs : InvitationStep w (some p) event w') : CallWrite w w' p := by
  cases hs with
  | create _ invitation id users h hc =>
    obtain ⟨hid, -, -, rfl⟩ := createInvitation_cases hc
    exact .insert hid rfl rfl
  | restart _ invitation ownerId users h hc =>
    obtain ⟨locked, hl, hcan, hne, hfree, rfl⟩ := restartInvitation_cases hc
    refine .put hl rfl (fence_of_none (by rw [h]; rfl) _) ⟨rfl, .inr ⟨hcan, rfl⟩, .inl rfl⟩
      (fun ha => ?_) fun _ => .inr ⟨write_moved (by rw [h]; nofun) _, .inr ?_⟩
    · simp [canRestartCancelledInvitation, ha] at hcan
    · have hid := (findById_eq_some hl).2
      rw [h]
      exact ⟨hid.symm, hfree, locked, hid ▸ hl, hcan, hne⟩
  | claim _ id requestId email users h hc =>
    obtain ⟨locked, hl, hst, -, -, -, rfl⟩ := claimRetry_cases hc
    exact .transaction hl rfl (fence_of_none (by rw [h]; rfl) _) (by rw [hst]; nofun)
      (.inl (by rw [hst]; rfl)) rfl (.inl rfl) fun h => h
  | cancel _ id cancelled users h hc =>
    obtain ⟨locked, hl, hcase⟩ := cancelInvitation_cases hc
    rcases hcase with ⟨-, -, rfl⟩ | ⟨hst, ht, -, rfl⟩
    · exact .same rfl
    · refine .transaction hl rfl (fence_of_none (by rw [h]; rfl) _) (fun ha => ?_) (.inl ht) rfl
        (.inl rfl) fun _ => rfl
      rw [ha] at hst
      cases hst
  | commit _ attempt x users h hc | commitLost _ attempt x users h hc =>
    exact callWrite_commit h nofun hc
  | markFailure _ attempt errorCode h =>
    rcases markInvitationFailure_cases attempt errorCode w.now w.users with he | ⟨before, hf, hst, hr, he⟩
    · exact .same he
    · exact .transaction hf he (fence_of_some (by rw [h]; rfl) (findById_eq_some hf).2 hr)
        (by rw [hst]; nofun) (.inl (by rw [hst]; rfl)) rfl (.inl rfl) fun h => h
  | markLocal _ attempt x h =>
    rcases markProviderSucceededLocalFailure_cases attempt x w.now w.users with
      ⟨-, he⟩ | ⟨before, hf, hst, hr, he⟩
    · exact .same he
    · refine .transaction hf he (fence_of_some (by rw [h]; rfl) (findById_eq_some hf).2 hr)
        (by rw [hst]; nofun) (.inl (by rw [hst]; rfl)) rfl ?_ fun h => h
      by_cases ht : subjectTaken w.users x before.id = true
      · exact .inl (if_pos ht)
      · exact .inr (.inr ⟨x, if_neg ht, by simpa using ht⟩)
  | attach _ attempt x h =>
    rcases attachCancelledIdentity_cases attempt x w.now w.users with
      ⟨he, -⟩ | ⟨cancelled, hf, hst, hr, -, ht, he⟩
    · exact .same (congrArg Prod.snd he)
    · exact .transaction hf (congrArg Prod.snd he)
        (fence_of_some (by rw [h]; rfl) (findById_eq_some hf).2 hr) (by rw [hst]; nofun)
        (.inl (by rw [hst]; rfl)) rfl (.inr (.inr ⟨x, rfl, ht⟩)) fun h => h
  | finish _ pending succeeded h =>
    rcases finishCompensation_cases pending succeeded w.now w.users with
      he | ⟨locked, hf, hst, hsub, hr, he⟩
    · exact .same he
    · refine .transaction hf he (fence_of_some (by rw [h]; rfl) (findById_eq_some hf).2 hr)
        (by rw [hst]; nofun) (.inl ?_) ?_ ?_ ?_
      · cases succeeded <;> rw [hst] <;> rfl
      · cases succeeded <;> rfl
      · cases succeeded with
        | false => exact .inl rfl
        | true => exact .inr (.inl rfl)
      · cases succeeded <;> exact fun h => h
  | accept _ session candidateId users usable acknowledged h hc =>
    obtain ⟨user, hf, hst, rfl⟩ := acceptInvitation_cases hc
    exact .transaction hf rfl (fence_of_none (by rw [h]; rfl) _) (by rw [hst]; nofun)
      (.inl (by rw [hst]; rfl)) rfl (.inl rfl) fun h => h
  | markAccept _ candidateId authUserId h =>
    rcases markAcceptCommitFailure_cases candidateId authUserId w.now w.users with
      he | ⟨user, hf, hst, he⟩
    · exact .same he
    · exact .transaction hf he (fence_of_none (by rw [h]; rfl) _) (by rw [hst]; nofun)
        (.inl (by rw [hst]; rfl)) rfl (.inl rfl) fun h => h
  | complete _ principalId providerUserId usable users h hc =>
    obtain ⟨user, hf, hst, rfl⟩ := completeInitialPassword_cases hc
    exact .transaction hf rfl (fence_of_none (by rw [h]; rfl) _) (by rw [hst]; nofun)
      (.inl (by rw [hst]; rfl)) rfl (.inl rfl) fun h => h
  | update _ id actorId body users h hc =>
    obtain ⟨current, hf, rfl⟩ := updateProfile_cases hc
    refine .put hf rfl (fence_of_none (by rw [h]; rfl) _)
      ⟨rfl, .inl (by simp [canTransitionInvitation]), .inl rfl⟩ (fun _ => ⟨id, actorId, body, h⟩)
      fun hoff => ?_
    by_cases hb : body.isActive = some true
    · exact .inr ⟨write_moved (by rw [h]; nofun) _,
        .inl (by rw [h]; exact ⟨(findById_eq_some hf).2.symm, hb⟩)⟩
    · refine .inl ?_
      cases hflag : body.isActive with
      | none => exact hoff
      | some flag => cases flag <;> first | rfl | exact absurd hflag hb
  | _ => exact .same rfl

/-- **A step** leaves the table alone, adds a row, or replaces one along the state machine; the
    result of an attempt only on a row that carries its request. -/
theorem InvitationStep.tableChange (hs : InvitationStep w (some p) event w') :
    TableChange (Fence (w.phase p)) w.users w'.users := by
  cases hs.callWrite with
  | same he => exact .of_eq he
  | insert hf hs he => exact he ▸ .insert hf hs
  | put hf he hfence hc _ _ => exact he ▸ tableChange_put _ hf hfence hc

theorem InvitationStep.users_of_none (hs : InvitationStep w none event w') : w'.users = w.users := by
  cases hs <;> rfl

variable {actor : Option π}

theorem InvitationStep.change (hs : InvitationStep w actor event w') :
    TableChange (fun u => ∀ p, actor = some p → Fence (w.phase p) u) w.users w'.users := by
  cases actor with
  | none => exact hs.users_of_none ▸ .same
  | some p =>
    have h := hs.tableChange
    have hP : Fence (w.phase p) = fun u => ∀ q, some p = some q → Fence (w.phase q) u := by
      funext u
      exact propext ⟨fun hf q hq => Option.some.inj hq ▸ hf, fun hf => hf p rfl⟩
    exact hP ▸ h

theorem InvitationReachable.uniqueColumns (h : InvitationReachable w) : UniqueColumns w.users := by
  induction h with
  | init hu _ => exact hu
  | step _ hs ih => exact hs.change.uniqueColumns ih

/-- A restart finds a cancelled row without a subject and without a code. -/
theorem InvitationStep.restart_row {userId requestId : String}
    (hs : InvitationStep w actor (.restart userId requestId) w') :
    ∃ u ∈ w.users, u.id = userId ∧ canRestartCancelledInvitation u = true := by
  cases hs with
  | restart p invitation ownerId users h hc =>
    obtain ⟨locked, hl, hcan, -⟩ := restartInvitation_cases hc
    exact ⟨locked, (findById_eq_some hl).1, (findById_eq_some hl).2, hcan⟩

theorem StatusChange.active (h : StatusChange u u') (ha : u.inviteStatus = .ACTIVE) :
    u'.inviteStatus = .ACTIVE := by
  rcases h with h | ⟨h, -⟩
  · rw [ha] at h
    cases hs : u'.inviteStatus <;> rw [hs] at h <;> first | rfl | cases h
  · simp [canRestartCancelledInvitation, ha] at h

theorem StatusChange.cancelled (h : StatusChange u u') (hc : u.inviteStatus = .CANCELLED)
    (hne : u'.inviteStatus ≠ .CANCELLED) :
    u.authUserId = none ∧ u.invitationErrorCode = none := by
  rcases h with h | ⟨h, -⟩
  · rw [hc] at h
    cases hs : u'.inviteStatus <;> rw [hs] at h hne <;> first | exact absurd rfl hne | cases h
  · simp only [canRestartCancelledInvitation, Bool.and_eq_true, decide_eq_true_eq] at h
    exact ⟨h.1.2, h.2⟩

/-- **Invitations are safe.** In every reachable world no two rows share a provider subject, and
    whatever step any call takes next: no row is lost, a row changes its status along the state
    machine or is restarted, ACTIVE stays, a restarted row has neither subject nor code, and the
    result of an attempt or of a compensation changes only the row and the request it is for. -/
theorem invitations_safe {w : InvitationWorld π} (hw : InvitationReachable w) :
    (∀ u ∈ w.users, ∀ v ∈ w.users, u.authUserId = v.authUserId → u.authUserId ≠ none → u = v) ∧
    ∀ actor event w', InvitationStep w actor event w' →
      (∀ u ∈ w.users, ∃ u' ∈ w'.users, u'.id = u.id) ∧
      (∀ u ∈ w.users, ∀ u' ∈ w'.users, u'.id = u.id →
        (canTransitionInvitation u.inviteStatus u'.inviteStatus = true ∨
          canRestartCancelledInvitation u = true ∧ u'.inviteStatus = .PENDING_PROVIDER) ∧
        (u.inviteStatus = .ACTIVE → u'.inviteStatus = .ACTIVE) ∧
        (u.inviteStatus = .CANCELLED → u'.inviteStatus ≠ .CANCELLED →
          u.authUserId = none ∧ u.invitationErrorCode = none)) ∧
      (∀ userId requestId, event = .restart userId requestId → ∃ u ∈ w.users, u.id = userId ∧
        u.inviteStatus = .CANCELLED ∧ u.authUserId = none ∧ u.invitationErrorCode = none) ∧
      ∀ p id request, actor = some p → (w.phase p).result = some (id, request) →
        ∀ u ∈ w.users, ∀ u' ∈ w'.users, u'.id = u.id → u' ≠ u →
          u.id = id ∧ u.invitationRequestId = request := by
  have hu := hw.uniqueColumns
  refine ⟨fun u hmem v hmem' he hn => ?_, fun actor event w' hs => ⟨hs.change.ids_subset, ?_, ?_, ?_⟩⟩
  · exact eq_of_id_eq hu.ids hmem hmem' (hu.subjects u hmem v hmem' he hn)
  · intro u hmem u' hmem' hid
    rcases hs.change.row hu hmem hmem' hid with rfl | ⟨-, hc⟩
    · exact ⟨.inl (by simp [canTransitionInvitation]), id, fun h hne => absurd h hne⟩
    · exact ⟨hc, hc.active, hc.cancelled⟩
  · rintro userId requestId rfl
    obtain ⟨u, hmem, hid, hcan⟩ := hs.restart_row
    simp only [canRestartCancelledInvitation, Bool.and_eq_true, decide_eq_true_eq] at hcan
    exact ⟨u, hmem, hid, hcan.1.1, hcan.1.2, hcan.2⟩
  · intro p id request ha hr u hmem u' hmem' hid hne
    rcases hs.change.row hu hmem hmem' hid with he | ⟨hf, -⟩
    · exact absurd he hne
    · exact hf p ha id request hr

/-- One call that has invited a new address and has the answer of the provider. -/
def invitedWorld : InvitationWorld Unit where
  now := 0
  users := [Invitation.newUser ⟨"kim@shop.kr", "Kim", .USER, "r1"⟩ "u1" 0]
  phase _ := .committing ⟨"u1", "kim@shop.kr", "r1", .request⟩ "s1"
  created := [⟨"s1", some "kim@shop.kr", some "r1"⟩]
  deleted := []

theorem invitedWorld_reachable : InvitationReachable invitedWorld := by
  let invitation : Invitation := ⟨"kim@shop.kr", "Kim", .USER, "r1"⟩
  have h0 : InvitationReachable (⟨0, [], fun _ => .idle, [], []⟩ : InvitationWorld Unit) :=
    .init ⟨nodup_nil, fun _ hu => absurd hu not_mem_nil⟩ fun _ => rfl
  have h1 := h0.step (.call () (.inviting invitation) rfl rfl)
  have h2 := h1.step (.searchRequest () invitation rfl)
  have h3 := h2.step (.searchOwner () invitation rfl)
  have h4 := h3.step (.create () invitation "u1" invitedWorld.users rfl rfl)
  have h5 := h4.step (.answer () ⟨"u1", "kim@shop.kr", "r1", .request⟩
    ⟨"s1", some "kim@shop.kr", some "r1"⟩ rfl)
  exact h5

theorem invitations_safe_committing :
    InvitationReachable invitedWorld ∧ ∀ event w', InvitationStep invitedWorld (some ()) event w' →
      ∀ u ∈ invitedWorld.users, ∀ u' ∈ w'.users, u'.id = u.id → u' ≠ u →
        u.id = "u1" ∧ u.invitationRequestId = some "r1" :=
  ⟨invitedWorld_reachable, fun event w' hs =>
    ((invitations_safe invitedWorld_reachable).2 (some ()) event w' hs).2.2.2 () "u1" (some "r1") rfl rfl⟩

end AdsManagement.Users
