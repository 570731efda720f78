/-
  File:      Users/Deactivation.lean
  Subject:   WHETHER A DEACTIVATION LASTS: `update(isActive = false)` against the calls that are
             under way on the same user.

  `update` takes the lock of the super administrators and not the one of the invitation, and it
  leaves the status and the claim of an attempt alone. Two transactions of the invitation calls
  write `isActive = true` and look at neither the flag nor who has set it: the restart of a
  cancelled row and the last transaction of a retry. A call that was under way when the
  deactivation was committed can still get there.

  * `DeactivationWatch` -- a world, whether a deactivation of the user stands, and the calls that
    were under way when it was committed;
  * `LaterAction` -- what an administrator may lift it with;
  * `Undisturbed` -- no such call takes its step while the row is as its write of the flag wants it;
  * `deactivation_lasts` -- then the user stays inactive until a later action;
  * `deactivation_lost` -- a retry that was under way lifts it.
-/
import AdsManagement.Lib.Runs
import AdsManagement.Users.InvitationSafety

namespace AdsManagement.Users

open Lib

variable {π : Type} [DecidableEq π]

/-! ## 1. What is watched -/

/-- Every row of the user is inactive. -/
def Inactive (user : String) (users : List AppUser) : Prop :=
  ∀ row ∈ users, row.id = user → row.isActive = false

/-- The call has begun and has not ended. -/
def InvitationWorld.underWay (w : InvitationWorld π) (p : π) : Prop :=
  w.phase p ≠ .idle ∧ w.phase p ≠ .ended

/-- The step commits an `update` of the user with `isActive = false`. -/
def Deactivates (user : String) (w w' : InvitationWorld π) : Prop :=
  ∃ p actorId body users, w.phase p = .updating user actorId body ∧ body.isActive = some false ∧
    updateProfile user actorId body w.now w.users = .ok users ∧ w' = w.write p users .ended

structure DeactivationWatch (π : Type) where
  world : InvitationWorld π
  /-- A deactivation has been committed, and no later action has activated the user since. -/
  deactivated : Prop
  /-- The calls that were under way when the last deactivation was committed. -/
  old : π → Prop

/-- An action of an administrator that comes after the deactivation: an `update` that takes its
    lock afterwards, or a retry or a re-invitation that was not under way. -/
def LaterAction (user : String) (s : DeactivationWatch π) (p : π) : Prop :=
  (s.world.phase p).activates user ∨ (s.world.phase p).reactivates user s.world.users ∧ ¬ s.old p

/-- The watch after a step. -/
def DeactivationWatch.next (user : String) (s : DeactivationWatch π) (w' : InvitationWorld π) :
    DeactivationWatch π where
  world := w'
  deactivated :=
    Deactivates user s.world w' ∨
      s.deactivated ∧ ¬ ((∃ p, s.world.moved w' p ∧ LaterAction user s p) ∧ ¬ Inactive user w'.users)
  old q :=
    Deactivates user s.world w' ∧ s.world.underWay q ∨ ¬ Deactivates user s.world w' ∧ s.old q

/-- Before the first deactivation that is watched. -/
def WatchStart (s : DeactivationWatch π) : Prop :=
  InvitationReachable s.world ∧ ¬ s.deactivated ∧ ∀ q, ¬ s.old q

/-- A step of any call, watched. -/
def WatchStep (user : String) (s s' : DeactivationWatch π) : Prop :=
  ∃ actor event w', InvitationStep s.world actor event w' ∧ s' = s.next user w'

/-- No retry and no re-invitation of the user that was under way when it was deactivated takes its
    last step while the row still waits for it: in PENDING_PROVIDER with the request of the retry
    and INVITATION_RETRY_IN_PROGRESS, or cancelled and free to be restarted. -/
def Undisturbed (user : String) (s s' : DeactivationWatch π) : Prop :=
  ∀ p, s.old p → s.world.moved s'.world p → ¬ (s.world.phase p).reactivates user s.world.users

/-! ## 2. One step -/

variable {user : String} {users : List AppUser}

theorem Inactive.of_eq {users' : List AppUser} (hi : Inactive user users) (h : users' = users) :
    Inactive user users' := h ▸ hi

/-- A transaction that does not set the flag. -/
theorem Inactive.put {user id : String} {users : List AppUser} (hi : Inactive user users) (now : Nat)
    {before after : AppUser} (hf : findById users id = some before) (hid : after.id = before.id)
    (ha : before.isActive = false → after.isActive = false) :
    Inactive user (putUser now after users) := by
  intro row hrow hu
  rcases mem_putUser hrow with rfl | ⟨hrow, -⟩
  · exact ha (hi before (findById_eq_some hf).1 (hid.symm.trans hu))
  · exact hi row hrow hu

/-- A transaction on another row. -/
theorem Inactive.put_other (hi : Inactive user users) (now : Nat) {after : AppUser} (hne : after.id ≠ user) :
    Inactive user (putUser now after users) := by
  intro row hrow hu
  rcases mem_putUser hrow with rfl | ⟨hrow, -⟩
  · exact absurd hu hne
  · exact hi row hrow hu

variable {w' w : InvitationWorld π}

/-- **One step** keeps an inactive user inactive, or is one of the three transactions that set the
    flag. -/
theorem InvitationStep.keeps_inactive {actor : Option π} {event : InvitationEvent}
    (hs : InvitationStep w actor event w') (hex : ∃ row ∈ w.users, row.id = user)
    (hi : Inactive user w.users) :
    Inactive user w'.users ∨ ∃ p, w.moved w' p ∧
      ((w.phase p).activates user ∨ (w.phase p).reactivates user w.users) := by
  cases actor with
  | none => exact .inl (hi.of_eq hs.users_of_none)
  | some p =>
    cases hs.callWrite with
    | same he => exact .inl (hi.of_eq he)
    | @insert new hf _ he =>
      refine .inl fun row hrow hu => ?_
      rcases List.mem_append.mp (he ▸ hrow) with hrow | hrow
      · exact hi row hrow hu
      · -- the id of a new row is free, the user has one
        obtain ⟨old, hold, rfl⟩ := hex
        rw [List.mem_singleton.mp hrow] at hu
        exact absurd hu.symm (findById_eq_none hf old hold)
    | @put id before after hf he _ hc _ hflag =>
      by_cases hu : before.id = user
      · rcases hflag (hi before (findById_eq_some hf).1 hu) with hoff | ⟨hm, hset⟩
        · exact .inl (he ▸ hi.put _ hf hc.id fun _ => hoff)
        · exact .inr ⟨p, hm, hu ▸ hset⟩
      · exact .inl (he ▸ hi.put_other _ (hc.id ▸ hu))

/-! ## 3. Runs -/

/-- A deactivation leaves a row, and it is inactive. -/
theorem Deactivates.inactive (h : Deactivates user w w') :
    (∃ row ∈ w'.users, row.id = user) ∧ Inactive user w'.users := by
  obtain ⟨p, actorId, body, users, -, hb, hc, rfl⟩ := h
  obtain ⟨current, hf, rfl⟩ := updateProfile_cases hc
  obtain ⟨hmem, hid⟩ := findById_eq_some hf
  constructor
  · exact ⟨_, mem_putUser_self hmem rfl, hid⟩
  · intro row hrow hu
    rcases mem_putUser hrow with rfl | ⟨-, hne⟩
    · simp [hb]
    · exact absurd (hu.trans hid.symm) hne

/-- **A deactivation lasts** in every run in which no retry and no re-invitation that was under way
    when it was committed finds the row still waiting for its last step: the user stays inactive
    until an administrator activates it by a later action. -/
theorem deactivation_lasts (user : String) {s : DeactivationWatch π}
    (hr : Reachable WatchStart (When (WatchStep user) (Undisturbed user)) s) (hd : s.deactivated) :
    Inactive user s.world.users := by
  have key : s.deactivated → (∃ row ∈ s.world.users, row.id = user) ∧ Inactive user s.world.users := by
    refine Reachable.invariant (I := fun s => s.deactivated →
      (∃ row ∈ s.world.users, row.id = user) ∧ Inactive user s.world.users)
      (fun s hs h => absurd h hs.2.1) ?_ hr
    rintro s s' ih ⟨⟨actor, event, w', hs, rfl⟩, hu⟩ hd
    rcases hd with hd | ⟨hd, hkept⟩
    · exact hd.inactive
    · obtain ⟨⟨row, hrow, hid⟩, hi⟩ := ih hd
      obtain ⟨row', hrow', hid'⟩ := hs.change.ids_subset row hrow
      refine ⟨⟨row', hrow', hid'.trans hid⟩, ?_⟩
      rcases hs.keeps_inactive ⟨row, hrow, hid⟩ hi with hi' | ⟨p, hm, ha⟩
      · exact hi'
      · by_contra hn
        refine hkept ⟨⟨p, hm, ?_⟩, hn⟩
        rcases ha with ha | ha
        · exact .inl ha
        · -- an old call does not find the row waiting
          exact .inr ⟨ha, fun hold => hu p hold hm ha⟩
  exact (key hd).2

/-- A user whose invitation the provider has not taken, and two calls. -/
def reconcilingWatch : DeactivationWatch Bool where
  world :=
    { now := 0
      users :=
        [{ id := "u1"
           normalizedEmail := some "kim@shop.kr"
           name := "Kim"
           role := .USER
           isActive := true
           inviteStatus := .RECONCILE_REQUIRED
           authUserId := none
           invitationRequestId := some "r1"
           invitationErrorCode := some .INVITATION_PROVIDER_UNAVAILABLE
           updatedAt := 0 }]
      phase := fun _ => .idle
      created := []
      deleted := [] }
  deactivated := False
  old _ := False

theorem reconcilingWatch_start : WatchStart reconcilingWatch := by
  refine ⟨.init ⟨by simp [reconcilingWatch], ?_⟩ fun _ => rfl, fun h => h, fun _ h => h⟩
  intro u hu v hv _ _
  rw [List.mem_singleton.mp hu, List.mem_singleton.mp hv]

/-- The row as the retry has claimed it. -/
def claimedRow : AppUser :=
  { Invitation.newUser ⟨"kim@shop.kr", "Kim", .USER, "r1"⟩ "u1" 0 with
    invitationErrorCode := some .INVITATION_RETRY_IN_PROGRESS }

def retryAttempt : Attempt := ⟨"u1", "kim@shop.kr", "r1", .retry⟩

def deactivation : ProfileChange := ⟨none, none, some false⟩

/-- The first call has claimed the row and waits for the provider, the second has deactivated the
    user. -/
theorem deactivated_under_retry :
    ∃ s : DeactivationWatch Bool, Reachable WatchStart (When (WatchStep "u1") (Undisturbed "u1")) s ∧
      s.deactivated ∧ s.old true ∧ s.world.now = 0 ∧
      s.world.users = [{ claimedRow with isActive := false }] ∧ s.world.phase false = .ended ∧
      s.world.phase true = .calling retryAttempt := by
  -- no call has come to the last transaction of a retry
  have hcalm : ∀ {s s' : DeactivationWatch Bool}, (∀ p, ¬ (s.world.phase p).reactivates "u1" s.world.users) →
      Undisturbed "u1" s s' := fun h p _ _ => h p
  have h0 : Reachable WatchStart (When (WatchStep "u1") (Undisturbed "u1")) reconcilingWatch :=
    .start reconcilingWatch_start
  have h1 := h0.next ⟨⟨_, _, _, .call true (.reconcilingRetry "u1") rfl rfl, rfl⟩,
    hcalm fun p => by cases p <;> exact id⟩
  have h2 := h1.next ⟨⟨_, _, _, .searchRetry true "u1" rfl, rfl⟩, hcalm fun p => by cases p <;> exact id⟩
  have h3 := h2.next ⟨⟨_, _, _, .claim true "u1" "r1" "kim@shop.kr" [claimedRow] rfl rfl, rfl⟩,
    hcalm fun p => by cases p <;> exact id⟩
  have h4 := h3.next ⟨⟨_, _, _, .call false (.updating "u1" "admin" deactivation) rfl rfl, rfl⟩,
    hcalm fun p => by cases p <;> exact id⟩
  have h5 := h4.next ⟨⟨_, _, _, .update false "u1" "admin" deactivation
    [{ claimedRow with isActive := false }] rfl rfl, rfl⟩, hcalm fun p => by cases p <;> exact id⟩
  refine ⟨_, h5, .inl ?_, .inl ⟨?_, nofun, nofun⟩, rfl, rfl, rfl, rfl⟩
  · exact ⟨false, "admin", deactivation, _, rfl, rfl, rfl, rfl⟩
  · exact ⟨false, "admin", deactivation, _, rfl, rfl, rfl, rfl⟩

/-- A step of the retry is no later action, and no deactivation. -/
theorem deactivated_next {s : DeactivationWatch Bool} {w' : InvitationWorld Bool} (hd : s.deactivated)
    (hold : s.old true) (hended : s.world.phase false = .ended)
    (hretry : ∀ id actorId body, s.world.phase true ≠ .updating id actorId body) :
    (s.next "u1" w').deactivated ∧ (s.next "u1" w').old true := by
  have hnone : ¬ Deactivates "u1" s.world w' := by
    rintro ⟨p, actorId, body, users, hp, -⟩
    cases p with
    | false => cases hended.symm.trans hp
    | true => exact hretry _ _ _ hp
  refine ⟨.inr ⟨hd, ?_⟩, .inr ⟨hnone, hold⟩⟩
  rintro ⟨⟨p, -, ha | ⟨ha, hnew⟩⟩, -⟩
  · cases p with
    | false =>
      rw [hended] at ha
      exact ha
    | true =>
      unfold CallPhase.activates at ha
      split at ha
      · exact hretry _ _ _ ‹_›
      · exact ha
  · cases p with
    | false =>
      rw [hended] at ha
      exact ha
    | true => exact hnew hold

/-- The provider refuses the retry, and its failure is recorded. -/
theorem deactivation_lasts_under_retry :
    ∃ s : DeactivationWatch Bool, Reachable WatchStart (When (WatchStep "u1") (Undisturbed "u1")) s ∧
      s.deactivated ∧ s.old true ∧ s.world.phase true = .ended ∧ Inactive "u1" s.world.users := by
  obtain ⟨s5, h5, hd5, hold5, hnow, husers, hended, hcalling⟩ := deactivated_under_retry
  let s6 := s5.next "u1" (s5.world.goto true (.failing retryAttempt .INVITATION_PROVIDER_UNAVAILABLE))
  have hended6 : s6.world.phase false = .ended := hended
  have h6 : Reachable _ _ s6 := h5.next ⟨⟨_, _, _, .providerFails true _ hcalling, rfl⟩, fun p _ _ ha => by
    cases p with
    | false => rwa [hended] at ha
    | true => rwa [hcalling] at ha⟩
  obtain ⟨hd6, hold6⟩ : s6.deactivated ∧ s6.old true :=
    deactivated_next hd5 hold5 hended (by rw [hcalling]; exact nofun)
  have h7 := h6.next ⟨⟨_, _, _, .markFailure true _ _ rfl, rfl⟩, fun p _ _ ha => by
    cases p with
    | false => rwa [hended6] at ha
    | true => exact ha⟩
  obtain ⟨hd7, hold7⟩ := deactivated_next hd6 hold6 hended6 nofun
  exact ⟨_, h7, hd7, hold7, rfl, deactivation_lasts "u1" h7 hd7⟩

/-- **A retry that was under way lifts the deactivation**: the provider answers it, and it commits. -/
theorem deactivation_lost :
    ¬ ∀ s : DeactivationWatch Bool, Reachable WatchStart (WatchStep "u1") s → s.deactivated →
      Inactive "u1" s.world.users := by
  intro hclaim
  obtain ⟨s5, h5, hd5, hold5, hnow, husers, hended, hcalling⟩ := deactivated_under_retry
  let identity : ProviderUser := ⟨"s1", some "kim@shop.kr", some "r1"⟩
  let invited : AppUser :=
    { claimedRow with authUserId := some "s1", inviteStatus := .INVITED, invitationErrorCode := none }
  let s6 := s5.next "u1"
    { s5.world.goto true (.committing retryAttempt "s1") with created := identity :: s5.world.created }
  have h6 : Reachable WatchStart (WatchStep "u1") s6 :=
    h5.of_when.next ⟨_, _, _, .answer true retryAttempt identity hcalling, rfl⟩
  obtain ⟨hd6, hold6⟩ : s6.deactivated ∧ s6.old true :=
    deactivated_next hd5 hold5 hended (by rw [hcalling]; exact nofun)
  have hcommit : commitInvitation retryAttempt "s1" s6.world.now s6.world.users = .ok [invited] := by
    show commitInvitation retryAttempt "s1" s5.world.now s5.world.users = _
    rw [hnow, husers]
    rfl
  have h7 := h6.next ⟨_, _, _, .commit true _ "s1" [invited] rfl hcommit, rfl⟩
  cases hclaim _ h7 (deactivated_next hd6 hold6 hended nofun).1 invited (List.mem_singleton.mpr rfl) rfl

end AdsManagement.Users
