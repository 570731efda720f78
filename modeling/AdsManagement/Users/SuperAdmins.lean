/-
  File:      Users/SuperAdmins.lean
  Subject:   THERE IS ALWAYS AN ACTIVE SUPER ADMINISTRATOR, with local passwords and with the
             identity provider, and who may take away his own access.

  A super administrator counts while the account is active and its status is ACTIVE. Only `update`
  and `resetPassword` can take one out of the count, and they count under the lock first; every
  other transaction leaves a row that counts alone. Both refuse to work on the caller, but they
  compare the id of the path as it was spelled with the id of the caller, while the lookup ignores
  the case of the digits.

  * `updateUser` -- `update` of users.service.ts with the id as it was spelled;
  * `LocalCall.effect`, `updateUser_effect`, `InvitationStep.keepsActiveRows` -- what each
    transaction does to the rows that count;
  * `super_admin_remains` -- over every run of either system;
  * `own_access_removed` -- the caller's own id in upper case.
-/
import AdsManagement.Lib.Runs
import AdsManagement.Users.InvitationSafety
import AdsManagement.Users.LocalUsers

namespace AdsManagement.Users

open Lib List

/-! ## 1. Local passwords -/

namespace Local

variable {users : List LocalUser} {id : String}

theorem findById_eq_some {u : LocalUser} (h : findById users id = some u) :
    u ∈ users ∧ u.id = canonicalUuid id :=
  ⟨mem_of_find?_eq_some h, by simpa using find?_some h⟩

/-- Two that `update` counts are two of the kind. -/
theorem two_le_countP (h : ¬ activeLocalSuperAdmins users ≤ 1) :
    2 ≤ users.countP isActiveSuperAdmin := by
  have hmono : activeLocalSuperAdmins users ≤ users.countP isActiveSuperAdmin := by
    refine countP_mono_left fun u _ hu => ?_
    simp only [Bool.and_eq_true] at hu
    exact hu.2
  omega

/-- **What a call does to the super administrators**: it keeps them, or it has counted two and
    takes the one of its path, which is not spelled as the caller. -/
def Effect (call : LocalCall) (users users' : List LocalUser) : Prop :=
  Keeps LocalUser.id isActiveSuperAdmin users users' ∨
    ∃ id, call.pathId = some id ∧ id ≠ call.caller ∧
      Spares LocalUser.id isActiveSuperAdmin (canonicalUuid id) users users'

variable {users' : List LocalUser}

/-- An account that does not count. -/
theorem keeps_put {before after : LocalUser} (hn : (users.map LocalUser.id).Nodup)
    (hb : before ∈ users) (hid : after.id = before.id)
    (hk : isActiveSuperAdmin before = true → isActiveSuperAdmin after = true) :
    Keeps LocalUser.id isActiveSuperAdmin users (putUser after users) :=
  keeps_replace hn hb hid hk

theorem invite_keeps {username : Option String} {name : String} {role : AppRole}
    {requestId newId : String} (h : invite username name role requestId newId users = .ok users') :
    Keeps LocalUser.id isActiveSuperAdmin users users' ∧
      ((users.map LocalUser.id).Nodup → (users'.map LocalUser.id).Nodup) := by
  unfold invite at h
  split at h
  · cases h
  · split at h
    · split at h
      · cases h
      · split at h <;> cases h
    · split at h
      · cases h
      · split at h
        · cases h
        · rename_i hfree
          cases h
          refine ⟨keeps_append _, fun hn => ?_⟩
          simp only [any_eq_true, not_exists, not_and, decide_eq_true_eq, not_or] at hfree
          exact nodup_map_concat hn fun u hu => (hfree u hu).1

variable {actorId : String}

theorem update_effect {body : ProfileChange} (hn : (users.map LocalUser.id).Nodup)
    (h : update id actorId body users = .ok users') :
    Effect (.update id actorId body) users users' ∧ users'.map LocalUser.id = users.map LocalUser.id := by
  unfold update at h
  split at h
  · cases h
  · split at h
    · cases h
    · rename_i before hb
      obtain ⟨hmem, hid⟩ := findById_eq_some hb
      split at h
      · cases h
      · split at h
        · cases h
        · rename_i hself
          split at h
          · cases h
          · rename_i hlast
            cases h
            refine ⟨?_, replaceRow_keys _ _⟩
            by_cases ht : isActiveSuperAdmin before = true ∧ takesAccess body = true
            · refine .inr ⟨id, rfl, fun he => hself ⟨he, ht.2⟩, ?_⟩
              have hc : ¬ activeLocalSuperAdmins users ≤ 1 := fun hc => hlast ⟨ht.1, ht.2, hc⟩
              exact spares_replace hn (two_le_countP hc) hid
            · refine .inl (keeps_put hn hmem rfl fun ha => ?_)
              have hkeep : takesAccess body = false := by simpa [ha] using ht
              simp only [takesAccess, Bool.or_eq_false_iff] at hkeep
              simp only [isActiveSuperAdmin, Bool.and_eq_true] at ha ⊢
              refine ⟨⟨?_, ?_⟩, ha.2⟩
              · cases hr : body.role with
                | none => exact ha.1.1
                | some role => simpa [hr] using hkeep.2
              · cases hi : body.isActive with
                | none => exact ha.1.2
                | some flag => cases flag <;> simp_all

theorem resetPassword_effect (hn : (users.map LocalUser.id).Nodup)
    (h : resetPassword id actorId users = .ok users') :
    Effect (.resetPassword id actorId) users users' ∧
      users'.map LocalUser.id = users.map LocalUser.id := by
  unfold resetPassword at h
  split at h
  · cases h
  · rename_i hself
    split at h
    · cases h
    · rename_i current hb
      obtain ⟨hmem, hid⟩ := findById_eq_some hb
      split at h
      · cases h
      · split at h
        · cases h
        · split at h
          · cases h
          · rename_i hlast
            cases h
            refine ⟨?_, replaceRow_keys _ _⟩
            by_cases ha : isActiveSuperAdmin current = true
            · refine .inr ⟨id, rfl, hself, ?_⟩
              have hc : ¬ activeLocalSuperAdmins users ≤ 1 := by
                simp only [isActiveSuperAdmin, Bool.and_eq_true, decide_eq_true_eq] at ha
                exact fun hc => hlast ⟨ha.1.1, ha.2, hc⟩
              exact spares_replace hn (two_le_countP hc) hid
            · exact .inl (keeps_put hn hmem rfl fun h => absurd h ha)

theorem acceptSetupToken_keeps {appUserId : String} {tokenUsable : Bool}
    (hn : (users.map LocalUser.id).Nodup) (h : acceptSetupToken appUserId tokenUsable users = .ok users') :
    Keeps LocalUser.id isActiveSuperAdmin users users' ∧
      users'.map LocalUser.id = users.map LocalUser.id := by
  unfold acceptSetupToken at h
  split at h
  · cases h
  · rename_i account hb
    split at h
    · cases h
    · rename_i hg
      cases h
      refine ⟨keeps_put hn (findById_eq_some hb).1 rfl fun ha => ?_, replaceRow_keys _ _⟩
      -- a token is only taken for an account that does not count
      simp only [isActiveSuperAdmin, Bool.and_eq_true, decide_eq_true_eq] at ha
      exact absurd (.inr (.inr ⟨by rw [ha.2]; nofun, by rw [ha.2]; nofun⟩)) hg

theorem completeInitialPassword_keeps {principalId : String} {sessionUsable : Bool}
    (hn : (users.map LocalUser.id).Nodup)
    (h : completeInitialPassword principalId sessionUsable users = .ok users') :
    Keeps LocalUser.id isActiveSuperAdmin users users' ∧
      users'.map LocalUser.id = users.map LocalUser.id := by
  unfold completeInitialPassword at h
  split at h
  · cases h
  · rename_i account hb
    split at h
    · cases h
    · cases h
      refine ⟨keeps_put hn (findById_eq_some hb).1 rfl fun ha => ?_, replaceRow_keys _ _⟩
      simp only [isActiveSuperAdmin, Bool.and_eq_true, decide_eq_true_eq] at ha ⊢
      exact ⟨ha.1, trivial⟩

/-- **Every call** has such an effect, and ids stay unique. -/
theorem LocalCall.effect {call : LocalCall} (hn : (users.map LocalUser.id).Nodup)
    (h : call.run users = .ok users') : Effect call users users' ∧ (users'.map LocalUser.id).Nodup := by
  cases call with
  | invite actorId username name role requestId newId =>
    obtain ⟨hk, hu⟩ := invite_keeps h
    exact ⟨.inl hk, hu hn⟩
  | update id actorId body =>
    obtain ⟨he, hu⟩ := update_effect hn h
    exact ⟨he, hu ▸ hn⟩
  | resetPassword id actorId =>
    obtain ⟨he, hu⟩ := resetPassword_effect hn h
    exact ⟨he, hu ▸ hn⟩
  | acceptSetupToken appUserId tokenUsable =>
    obtain ⟨hk, hu⟩ := acceptSetupToken_keeps hn h
    exact ⟨.inl hk, hu ▸ hn⟩
  | completeInitialPassword principalId sessionUsable =>
    obtain ⟨hk, hu⟩ := completeInitialPassword_keeps hn h
    exact ⟨.inl hk, hu ▸ hn⟩

/-- A table with an active super administrator. -/
def Start (users : List LocalUser) : Prop :=
  (users.map LocalUser.id).Nodup ∧ ∃ u ∈ users, isActiveSuperAdmin u = true

/-- A call that does not throw. -/
def Step (users users' : List LocalUser) : Prop := ∃ call : LocalCall, call.run users = .ok users'

theorem reachable_start (h : Reachable Start Step users) : Start users := by
  refine h.invariant (fun _ h => h) ?_
  rintro users users' ⟨hn, he⟩ ⟨call, hc⟩
  obtain ⟨heff, hn'⟩ := LocalCall.effect hn hc
  rcases heff with hk | ⟨id, -, -, hs⟩
  · exact ⟨hn', hk.exists he⟩
  · exact ⟨hn', hs.exists⟩

/-- Where the path names the caller, it is spelled as the database prints the id. -/
def LocalCall.SpelledAsStored (call : LocalCall) : Prop :=
  ∀ id, call.pathId = some id → canonicalUuid id = call.caller → id = call.caller

end Local

/-! ## 2. The identity provider -/

/-- `update` of users.service.ts with the id as it was spelled. -/
def updateUser (id actorId : String) (body : ProfileChange) (now : Nat) (users : List AppUser) :
    Except UserLifecycleError (List AppUser) :=
  updateRow (id = actorId) (canonicalUuid id) body now users

theorem putUser_eq_replaceRow (now : Nat) (user : AppUser) (users : List AppUser) :
    putUser now user users = replaceRow AppUser.id { user with updatedAt := now } users := rfl

variable {users users' : List AppUser}

/-- `update` keeps the super administrators, or it has counted two and takes the one of the path,
    which is not spelled as the caller. -/
theorem updateUser_effect {id actorId : String} {body : ProfileChange} {now : Nat}
    (hu : UniqueColumns users) (h : updateUser id actorId body now users = .ok users') :
    (Keeps AppUser.id isActiveSuperAdmin users users' ∨
      id ≠ actorId ∧ Spares AppUser.id isActiveSuperAdmin (canonicalUuid id) users users') ∧
    UniqueColumns users' := by
  unfold updateUser updateRow at h
  split at h
  · cases h
  · split at h
    · cases h
    · rename_i current hb
      obtain ⟨hmem, hid⟩ := findById_eq_some hb
      simp only at h
      split at h
      · cases h
      · rename_i hself
        split at h
        · cases h
        · split at h
          · cases h
          · rename_i hlast
            cases h
            have hchange : UserChange users current
                { current with
                  name := body.name.getD current.name
                  role := body.role.getD current.role
                  isActive := body.isActive.getD current.isActive } :=
              ⟨rfl, .inl (by simp [canTransitionInvitation]), .inl rfl⟩
            refine ⟨?_, (tableChange_put (P := fun _ => True) now hb trivial hchange).uniqueColumns hu⟩
            rw [putUser_eq_replaceRow]
            by_cases ht : isActiveSuperAdmin current = true ∧
                (body.role.getD current.role ≠ .SUPER_ADMIN ∨
                  body.isActive.getD current.isActive = false)
            · obtain ⟨ha, ht⟩ := ht
              have hc : 2 ≤ users.countP isActiveSuperAdmin := by
                by_contra hc
                exact hlast ⟨ha, ht, by omega⟩
              refine .inr ⟨fun he => hself ⟨decide_eq_true he, ?_⟩, spares_replace hu.ids hc hid⟩
              simp only [isActiveSuperAdmin, Bool.and_eq_true, decide_eq_true_eq] at ha
              rcases ht with ht | ht
              · exact .inr (ha.1.1 ▸ ht)
              · exact .inl ht
            · refine .inl (keeps_replace hu.ids hmem rfl fun ha => ?_)
              have hkeep := not_or.mp (not_and.mp ht ha)
              simp only [isActiveSuperAdmin, Bool.and_eq_true, decide_eq_true_eq] at ha ⊢
              exact ⟨⟨not_not.mp hkeep.1, by simpa using hkeep.2⟩, ha.2⟩

variable {π : Type} [DecidableEq π]
variable {w w' : InvitationWorld π} {event : InvitationEvent} {actor : Option π}

/-- **The invitation calls leave an ACTIVE row alone.** -/
theorem InvitationStep.keepsActiveRows (hn : (w.users.map AppUser.id).Nodup)
    (hs : InvitationStep w actor event w')
    (hp : ∀ p id actorId body, actor = some p → w.phase p ≠ .updating id actorId body) :
    ∀ u ∈ w.users, u.inviteStatus = .ACTIVE → u ∈ w'.users := by
  intro u hu ha
  cases actor with
  | none => exact hs.users_of_none ▸ hu
  | some p =>
    cases hs.callWrite with
    | same he => exact he ▸ hu
    | insert _ _ he => exact he ▸ mem_append_left _ hu
    | put hf he _ hc hactive _ =>
      refine he ▸ mem_putUser_of_ne hu fun hid => ?_
      have hb := eq_of_id_eq hn hu (findById_eq_some hf).1 (hid.trans hc.id)
      obtain ⟨id, actorId, body, hphase⟩ := hactive (hb ▸ ha)
      exact hp p id actorId body rfl hphase

/-- The id of the path and the caller of an `update`. -/
structure UpdateRequest where
  id : String
  actorId : String

/-- A step of the provider's system: one of an invitation call, or an `update` with the id as it
    was spelled. -/
inductive ProviderStep (w : InvitationWorld π) : Option UpdateRequest → InvitationWorld π → Prop
  | flow {w' : InvitationWorld π} {actor : Option π} {event : InvitationEvent}
      (h : InvitationStep w actor event w')
      (hp : ∀ p id actorId body, actor = some p → w.phase p ≠ .updating id actorId body) :
      ProviderStep w none w'
  | update (id actorId : String) (body : ProfileChange) (users : List AppUser)
      (h : updateUser id actorId body w.now w.users = .ok users) :
      ProviderStep w (some ⟨id, actorId⟩) { w with users }

/-- Where the path names the caller, it is spelled as the database prints the id. -/
def UpdateRequest.SpelledAsStored (request : UpdateRequest) : Prop :=
  canonicalUuid request.id = request.actorId → request.id = request.actorId

/-- A table with an active super administrator. -/
def ProviderStart (w : InvitationWorld π) : Prop :=
  UniqueColumns w.users ∧ ∃ u ∈ w.users, isActiveSuperAdmin u = true

theorem keeps_of_flow (hn : (w.users.map AppUser.id).Nodup) (h : InvitationStep w actor event w')
    (hp : ∀ p id actorId body, actor = some p → w.phase p ≠ .updating id actorId body) :
    Keeps AppUser.id isActiveSuperAdmin w.users w'.users := by
  refine .of_subset fun u hu ha => h.keepsActiveRows hn hp u hu ?_
  simp only [isActiveSuperAdmin, Bool.and_eq_true, decide_eq_true_eq] at ha
  exact ha.2

theorem reachable_providerStart
    (h : Reachable ProviderStart (fun w w' => ∃ request, ProviderStep w request w') w) :
    ProviderStart w := by
  refine h.invariant (fun _ h => h) ?_
  rintro w w' ⟨hu, he⟩ ⟨request, hs⟩
  cases hs with
  | flow h hp => exact ⟨h.change.uniqueColumns hu, (keeps_of_flow hu.ids h hp).exists he⟩
  | update id actorId body users h =>
    obtain ⟨heff, hu'⟩ := updateUser_effect hu h
    rcases heff with hk | ⟨-, hs⟩
    · exact ⟨hu', hk.exists he⟩
    · exact ⟨hu', hs.exists⟩

/-! ## 3. Both systems -/

/-- **There is always an active super administrator.** In every run of either system one is there
    in every state; and no call takes away the access of its caller, where a path that names the
    caller is spelled as the database prints the id. -/
theorem super_admin_remains :
    (∀ users : List Local.LocalUser, Reachable Local.Start Local.Step users →
      (∃ u ∈ users, Local.isActiveSuperAdmin u = true) ∧
      ∀ (call : Local.LocalCall) (users' : List Local.LocalUser), call.run users = .ok users' →
        call.SpelledAsStored → ∀ u ∈ users, u.id = call.caller → Local.isActiveSuperAdmin u = true →
          ∃ u' ∈ users', u'.id = u.id ∧ Local.isActiveSuperAdmin u' = true) ∧
    ∀ w : InvitationWorld π,
      Reachable ProviderStart (fun w w' => ∃ request, ProviderStep w request w') w →
      (∃ u ∈ w.users, isActiveSuperAdmin u = true) ∧
      ∀ (request : Option UpdateRequest) (w' : InvitationWorld π), ProviderStep w request w' →
        ∀ u ∈ w.users, (∀ r, request = some r → u.id = r.actorId ∧ r.SpelledAsStored) →
          isActiveSuperAdmin u = true → ∃ u' ∈ w'.users, u'.id = u.id ∧ isActiveSuperAdmin u' = true := by
  constructor
  · intro users hr
    obtain ⟨hn, he⟩ := Local.reachable_start hr
    refine ⟨he, fun call users' hc hspelled u hu hid ha => ?_⟩
    rcases (Local.LocalCall.effect hn hc).1 with hk | ⟨id, hpath, hne, hs⟩
    · exact hk u hu ha
    · refine hs.others u hu (fun hsame => hne (hspelled id hpath ?_)) ha
      exact hsame.symm.trans hid
  · intro w hr
    obtain ⟨hu, he⟩ := reachable_providerStart hr
    refine ⟨he, fun request w' hs u hmem hcaller ha => ?_⟩
    cases hs with
    | flow h hp => exact keeps_of_flow hu.ids h hp u hmem ha
    | update id actorId body users h =>
      obtain ⟨hid, hspelled⟩ := hcaller ⟨id, actorId⟩ rfl
      rcases (updateUser_effect hu h).1 with hk | ⟨hne, hs⟩
      · exact hk u hmem ha
      · exact hs.others u hmem (fun hsame => hne (hspelled (hsame.symm.trans hid))) ha

namespace Local

/-- An active super administrator with a local password. -/
def superAdmin (id username : String) : LocalUser where
  id := id
  username := some username
  normalizedUsername := some username
  name := username
  role := .SUPER_ADMIN
  isActive := true
  inviteStatus := .ACTIVE
  invitationRequestId := none

def twoSuperAdmins : List LocalUser :=
  [superAdmin "a1111111-1111-4111-8111-111111111111" "kim",
   superAdmin "b2222222-2222-4222-8222-222222222222" "lee"]

theorem twoSuperAdmins_start : Start twoSuperAdmins := by
  refine ⟨by decide +kernel, ?_⟩
  exact ⟨_, mem_cons_self, rfl⟩

end Local

/-- The first of two demotes the second: he is still one himself. -/
theorem super_admin_remains_of_two :
    Local.LocalCall.SpelledAsStored (.update "b2222222-2222-4222-8222-222222222222"
        "a1111111-1111-4111-8111-111111111111" ⟨none, some .ADMIN, none⟩) ∧
      ∃ users', Local.update "b2222222-2222-4222-8222-222222222222"
          "a1111111-1111-4111-8111-111111111111" ⟨none, some .ADMIN, none⟩ Local.twoSuperAdmins = .ok users' ∧
        ∃ u' ∈ users', u'.id = "a1111111-1111-4111-8111-111111111111" ∧
          Local.isActiveSuperAdmin u' = true := by
  let call : Local.LocalCall := .update "b2222222-2222-4222-8222-222222222222"
    "a1111111-1111-4111-8111-111111111111" ⟨none, some .ADMIN, none⟩
  have hspelled : call.SpelledAsStored := by
    intro id hid hc
    cases hid
    revert hc
    decide +kernel
  have hrun : ∃ users', call.run Local.twoSuperAdmins = .ok users' := ⟨_, rfl⟩
  obtain ⟨users', hrun⟩ := hrun
  refine ⟨hspelled, users', hrun, ?_⟩
  exact ((super_admin_remains (π := Unit)).1 _ (.start Local.twoSuperAdmins_start)).2 call users' hrun
    hspelled _ mem_cons_self rfl rfl

/-- **The caller's own id in upper case**: `update` does not see that it is the caller and takes
    the access of the one who has called it. -/
theorem own_access_removed :
    ¬ ∀ users : List Local.LocalUser, Reachable Local.Start Local.Step users →
      ∀ (call : Local.LocalCall) (users' : List Local.LocalUser), call.run users = .ok users' →
        ∀ u ∈ users, u.id = call.caller → Local.isActiveSuperAdmin u = true →
          ∃ u' ∈ users', u'.id = u.id ∧ Local.isActiveSuperAdmin u' = true := by
  intro h
  let call : Local.LocalCall := .update "A1111111-1111-4111-8111-111111111111"
    "a1111111-1111-4111-8111-111111111111" ⟨none, none, some false⟩
  have hrun : call.run Local.twoSuperAdmins = .ok
      [{ Local.superAdmin "a1111111-1111-4111-8111-111111111111" "kim" with isActive := false },
       Local.superAdmin "b2222222-2222-4222-8222-222222222222" "lee"] := by decide +kernel
  obtain ⟨u', hu', hid, ha⟩ :=
    h _ (.start Local.twoSuperAdmins_start) call _ hrun _ mem_cons_self rfl rfl
  rcases mem_cons.mp hu' with rfl | hu'
  · cases ha
  · rw [mem_singleton.mp hu'] at hid
    revert hid
    decide +kernel

end AdsManagement.Users
