/-
  File:      Users/InvitationSteps.lean
  Subject:   THE CALLS ON INVITATIONS AS PROCESSES: where a call stands between its transactions
             and its calls to the identity provider, and every step it can take from there.

  Any number of calls run at once. A transaction is one step, a read outside a transaction is
  one, and so is the answer of the provider; between two steps of a call any other call may move
  and any time may pass. The provider keeps the identities it has created and those deleted. A
  step is marked as a fault where something fails that a call cannot make good by itself: a
  crash, a failure handler or a compensation that fails, an answer that is lost.

  * `CallPhase` -- the points at which a call can be interrupted;
  * `InvitationStep` -- the steps, with the event they stand for;
  * `InvitationReachable` -- the worlds any interleaving leads to.
-/
import Mathlib.Logic.Relation
import AdsManagement.Users.Invitations

namespace AdsManagement.Users

/-! ## 1. Calls -/

/-- Where a call stands: what it does next, and what it has read. -/
inductive CallPhase where
  | idle
  -- invite
  | inviting (invitation : Invitation)
  | findingOwner (invitation : Invitation)
  | creating (invitation : Invitation)
  | restarting (invitation : Invitation) (ownerId : String)
  -- reconcile
  | reconcilingRetry (id : String)
  | claimingRetry (id requestId : String)
  | reconcilingCancel (id : String)
  | cancelling (id : String)
  -- an attempt: the provider call, and what follows from its answer
  | calling (attempt : Attempt)
  | failing (attempt : Attempt) (errorCode : InvitationErrorCode)
  | committing (attempt : Attempt) (providerUserId : String)
  | marking (attempt : Attempt) (providerUserId : String)
  | attaching (attempt : Attempt) (providerUserId : String)
  -- compensateCancelledInvitation
  | compensating (id : String)
  | lookingUp (pending : AppUser) (authUserId : String)
  | removing (pending : AppUser) (authUserId : String)
  | finishing (pending : AppUser) (succeeded : Bool)
  -- acceptInvitation, completeInitialPassword and update
  | accepting (session : ProviderUser)
  | acceptingCandidate (session : ProviderUser) (candidateId : String)
  | markingAccept (authUserId : String)
  | markingAcceptCandidate (candidateId authUserId : String)
  | completing (principalId providerUserId : String)
  | updating (id actorId : String) (body : ProfileChange)
  | ended

/-- The first step of a call. -/
def CallPhase.isCall : CallPhase → Bool
  | .inviting _ => true
  | .reconcilingRetry _ => true
  | .reconcilingCancel _ => true
  | .accepting _ => true
  | .completing _ _ => true
  | .updating _ _ _ => true
  | _ => false

/-- The call has no claim and no identity to dispose of: it may simply fail. -/
def CallPhase.holdsNothing : CallPhase → Bool
  | .calling _ => false
  | .failing _ _ => false
  | .committing _ _ => false
  | .marking _ _ => false
  | .attaching _ _ => false
  | .compensating _ => false
  | .lookingUp _ _ => false
  | .removing _ _ => false
  | .finishing _ _ => false
  | _ => true

/-- Where the next step of a call writes the result of an attempt or of a compensation: the row,
    and the request it belongs to. -/
def CallPhase.result : CallPhase → Option (String × Option String)
  | .failing attempt _ => some (attempt.userId, some attempt.requestId)
  | .committing attempt _ => some (attempt.userId, some attempt.requestId)
  | .marking attempt _ => some (attempt.userId, some attempt.requestId)
  | .attaching attempt _ => some (attempt.userId, some attempt.requestId)
  | .finishing pending _ => some (pending.id, pending.invitationRequestId)
  | _ => none

/-- What a step stands for, where it matters. -/
inductive InvitationEvent where
  | quiet
  | restart (userId requestId : String)
  | answer (attempt : Attempt) (identity : ProviderUser)
  | fault

variable {π : Type}

structure InvitationWorld (π : Type) where
  now : Nat
  users : List AppUser
  phase : π → CallPhase
  created : List ProviderUser
  deleted : List String

/-- `getUserById`: an identity that was created and not deleted. -/
def InvitationWorld.identity (w : InvitationWorld π) (id : String) : Option ProviderUser :=
  if id ∈ w.deleted then none else w.created.find? fun identity => identity.id = id

/-- The identity carries the address and the request of an attempt. -/
def ProviderUser.matchesAttempt (identity : ProviderUser) (attempt : Attempt) : Bool :=
  identity.normalizedEmail = some attempt.normalizedEmail &&
    identity.invitationRequestId = some attempt.requestId

/-- The identity is the one a cancelled row waits to be rid of. -/
def ProviderUser.matchesPending (identity : ProviderUser) (pending : AppUser) : Bool :=
  some identity.id = pending.authUserId && identity.normalizedEmail = pending.normalizedEmail &&
    identity.invitationRequestId = pending.invitationRequestId

/-! ## 2. Reads -/

section

variable (id : String) (users : List AppUser)

/-- `reconcile(RETRY)`, before its transaction. -/
def retryPhase : CallPhase :=
  match findById users id with
  | none => .ended
  | some current =>
    match current.invitationRequestId with
    | none => .ended
    | some requestId =>
      if isRetryableInvitationFailure current.inviteStatus current.invitationErrorCode &&
          current.authUserId.isNone && current.normalizedEmail.isSome then
        .claimingRetry id requestId
      else .ended

/-- `reconcile(CANCEL)`, before its transaction. -/
def cancelPhase : CallPhase :=
  match findById users id with
  | none => .ended
  | some current =>
    if current.inviteStatus = .CANCELLED ∧
        current.invitationErrorCode = some .INVITATION_PROVIDER_COMPENSATION_REQUIRED then
      .compensating id
    else if current.inviteStatus = .CANCELLED ∧ current.invitationErrorCode = none then .ended
    else .cancelling id

/-- `compensateCancelledInvitation`, before its provider calls. -/
def pendingPhase : CallPhase :=
  match pendingCompensation id users with
  | none => .ended
  | some pending =>
    match pending.authUserId with
    | none => .ended
    | some authUserId => .lookingUp pending authUserId

end

/-- A call goes on with the row of a subject, if there is one. -/
def candidatePhase (authUserId : String) (users : List AppUser) (next : String → CallPhase) : CallPhase :=
  match findBySubject users authUserId with
  | none => .ended
  | some candidate => next candidate.id

/-! ## 3. Steps -/

section Steps

variable [DecidableEq π]

def InvitationWorld.goto (w : InvitationWorld π) (p : π) (phase : CallPhase) : InvitationWorld π :=
  { w with phase := Function.update w.phase p phase }

/-- A step of the transaction of a call. -/
def InvitationWorld.write (w : InvitationWorld π) (p : π) (users : List AppUser) (phase : CallPhase) :
    InvitationWorld π :=
  { w.goto p phase with users }

inductive InvitationStep (w : InvitationWorld π) :
    Option π → InvitationEvent → InvitationWorld π → Prop
  | tick (ms : Nat) : InvitationStep w none .quiet { w with now := w.now + ms }
  | call (p : π) (phase : CallPhase) (h : w.phase p = .idle) (hc : phase.isCall = true) :
      InvitationStep w (some p) .quiet (w.goto p phase)
  | abort (p : π) (h : (w.phase p).holdsNothing = true) :
      InvitationStep w (some p) .quiet (w.goto p .ended)
  | crash (p : π) : InvitationStep w (some p) .fault (w.goto p .ended)
  -- invite / beginInvitation
  | searchRequest (p : π) (invitation : Invitation) (h : w.phase p = .inviting invitation) :
      InvitationStep w (some p) .quiet
        (w.goto p (if (findByRequest w.users invitation.requestId).isSome then .ended
          else .findingOwner invitation))
  | searchOwner (p : π) (invitation : Invitation) (h : w.phase p = .findingOwner invitation) :
      InvitationStep w (some p) .quiet
        (w.goto p (match findByEmail w.users invitation.normalizedEmail with
          | none => .creating invitation
          | some owner => .restarting invitation owner.id))
  | create (p : π) (invitation : Invitation) (id : String) (users : List AppUser)
      (h : w.phase p = .creating invitation)
      (hc : createInvitation invitation id w.now w.users = .ok users) :
      InvitationStep w (some p) .quiet
        (w.write p users (.calling ⟨id, invitation.normalizedEmail, invitation.requestId, .request⟩))
  | restart (p : π) (invitation : Invitation) (ownerId : String) (users : List AppUser)
      (h : w.phase p = .restarting invitation ownerId)
      (hc : restartInvitation invitation ownerId w.now w.users = .ok (some users)) :
      InvitationStep w (some p) (.restart ownerId invitation.requestId)
        (w.write p users (.calling ⟨ownerId, invitation.normalizedEmail, invitation.requestId, .request⟩))
  -- reconcile
  | searchRetry (p : π) (id : String) (h : w.phase p = .reconcilingRetry id) :
      InvitationStep w (some p) .quiet (w.goto p (retryPhase id w.users))
  | claim (p : π) (id requestId email : String) (users : List AppUser)
      (h : w.phase p = .claimingRetry id requestId)
      (hc : claimRetry id w.now w.users = .ok (some email, users)) :
      InvitationStep w (some p) .quiet (w.write p users (.calling ⟨id, email, requestId, .retry⟩))
  | searchCancel (p : π) (id : String) (h : w.phase p = .reconcilingCancel id) :
      InvitationStep w (some p) .quiet (w.goto p (cancelPhase id w.users))
  | cancel (p : π) (id : String) (cancelled : AppUser) (users : List AppUser)
      (h : w.phase p = .cancelling id) (hc : cancelInvitation id w.now w.users = .ok (cancelled, users)) :
      InvitationStep w (some p) .quiet
        (w.write p users
          (if cancelled.invitationErrorCode = some .INVITATION_PROVIDER_COMPENSATION_REQUIRED then
            .compensating id
          else .ended))
  -- the provider call of an attempt
  | answer (p : π) (attempt : Attempt) (identity : ProviderUser) (h : w.phase p = .calling attempt) :
      InvitationStep w (some p) (.answer attempt identity)
        { w.goto p (if identity.matchesAttempt attempt then .committing attempt identity.id
            else .failing attempt .INVITATION_PROVIDER_IDENTITY_MISMATCH) with
          created := identity :: w.created }
  | providerFails (p : π) (attempt : Attempt) (h : w.phase p = .calling attempt) :
      InvitationStep w (some p) .quiet
        (w.goto p (.failing attempt .INVITATION_PROVIDER_UNAVAILABLE))
  | answerLost (p : π) (attempt : Attempt) (identity : ProviderUser) (h : w.phase p = .calling attempt) :
      InvitationStep w (some p) .fault
        { w.goto p (.failing attempt .INVITATION_PROVIDER_UNAVAILABLE) with
          created := identity :: w.created }
  -- its result, and the failure handlers
  | commit (p : π) (attempt : Attempt) (providerUserId : String) (users : List AppUser)
      (h : w.phase p = .committing attempt providerUserId)
      (hc : commitInvitation attempt providerUserId w.now w.users = .ok users) :
      InvitationStep w (some p) .quiet (w.write p users .ended)
  | commitLost (p : π) (attempt : Attempt) (providerUserId : String) (users : List AppUser)
      (h : w.phase p = .committing attempt providerUserId)
      (hc : commitInvitation attempt providerUserId w.now w.users = .ok users) :
      InvitationStep w (some p) .quiet (w.write p users (.marking attempt providerUserId))
  | commitFails (p : π) (attempt : Attempt) (providerUserId : String)
      (h : w.phase p = .committing attempt providerUserId) :
      InvitationStep w (some p) .quiet (w.goto p (.marking attempt providerUserId))
  | markFailure (p : π) (attempt : Attempt) (errorCode : InvitationErrorCode)
      (h : w.phase p = .failing attempt errorCode) :
      InvitationStep w (some p) .quiet
        (w.write p (markInvitationFailure attempt errorCode w.now w.users) .ended)
  | markLocal (p : π) (attempt : Attempt) (providerUserId : String)
      (h : w.phase p = .marking attempt providerUserId) :
      InvitationStep w (some p) .quiet
        (w.write p (markProviderSucceededLocalFailure attempt providerUserId w.now w.users)
          (.attaching attempt providerUserId))
  | markLocalFails (p : π) (attempt : Attempt) (providerUserId : String)
      (h : w.phase p = .marking attempt providerUserId) :
      InvitationStep w (some p) .fault (w.goto p (.attaching attempt providerUserId))
  | attach (p : π) (attempt : Attempt) (providerUserId : String)
      (h : w.phase p = .attaching attempt providerUserId) :
      InvitationStep w (some p) .quiet
        (w.write p (attachCancelledIdentity attempt providerUserId w.now w.users).2
          (if (attachCancelledIdentity attempt providerUserId w.now w.users).1 then
            .compensating attempt.userId
          else .ended))
  -- compensateCancelledInvitation
  | readPending (p : π) (id : String) (h : w.phase p = .compensating id) :
      InvitationStep w (some p) .quiet (w.goto p (pendingPhase id w.users))
  | lookUp (p : π) (pending : AppUser) (authUserId : String) (identity : ProviderUser)
      (h : w.phase p = .lookingUp pending authUserId) (hi : w.identity authUserId = some identity) :
      InvitationStep w (some p) .quiet
        (w.goto p (if identity.matchesPending pending then .removing pending authUserId
          else .finishing pending false))
  | lookUpNothing (p : π) (pending : AppUser) (authUserId : String)
      (h : w.phase p = .lookingUp pending authUserId) (hi : w.identity authUserId = none) :
      InvitationStep w (some p) .quiet (w.goto p (.finishing pending true))
  | lookUpFails (p : π) (pending : AppUser) (authUserId : String)
      (h : w.phase p = .lookingUp pending authUserId) :
      InvitationStep w (some p) .fault (w.goto p (.finishing pending false))
  | remove (p : π) (pending : AppUser) (authUserId : String)
      (h : w.phase p = .removing pending authUserId) :
      InvitationStep w (some p) .quiet
        { w.goto p (.finishing pending true) with deleted := authUserId :: w.deleted }
  | removeTwice (p : π) (pending : AppUser) (authUserId : String)
      (h : w.phase p = .removing pending authUserId) (hd : authUserId ∈ w.deleted) :
      InvitationStep w (some p) .quiet (w.goto p (.finishing pending false))
  | removeFails (p : π) (pending : AppUser) (authUserId : String)
      (h : w.phase p = .removing pending authUserId) :
      InvitationStep w (some p) .fault (w.goto p (.finishing pending false))
  | removeLost (p : π) (pending : AppUser) (authUserId : String)
      (h : w.phase p = .removing pending authUserId) :
      InvitationStep w (some p) .fault
        { w.goto p (.finishing pending false) with deleted := authUserId :: w.deleted }
  | removedElsewhere (authUserId : String) :
      InvitationStep w none .fault { w with deleted := authUserId :: w.deleted }
  | finish (p : π) (pending : AppUser) (succeeded : Bool) (h : w.phase p = .finishing pending succeeded) :
      InvitationStep w (some p) .quiet
        (w.write p (finishCompensation pending succeeded w.now w.users) .ended)
  -- acceptInvitation and markAcceptCommitFailure
  | searchAccept (p : π) (session : ProviderUser) (h : w.phase p = .accepting session) :
      InvitationStep w (some p) .quiet
        (w.goto p (candidatePhase session.id w.users (.acceptingCandidate session)))
  | accept (p : π) (session : ProviderUser) (candidateId : String) (users : List AppUser)
      (usable acknowledged : Bool) (h : w.phase p = .acceptingCandidate session candidateId)
      (hc : acceptInvitation candidateId session usable w.now w.users = .ok users) :
      InvitationStep w (some p) .quiet
        (w.write p users (if acknowledged then .ended else .markingAccept session.id))
  | acceptFails (p : π) (session : ProviderUser) (candidateId : String)
      (h : w.phase p = .acceptingCandidate session candidateId) :
      InvitationStep w (some p) .quiet (w.goto p (.markingAccept session.id))
  | searchMark (p : π) (authUserId : String) (h : w.phase p = .markingAccept authUserId) :
      InvitationStep w (some p) .quiet
        (w.goto p (candidatePhase authUserId w.users (.markingAcceptCandidate · authUserId)))
  | markAccept (p : π) (candidateId authUserId : String)
      (h : w.phase p = .markingAcceptCandidate candidateId authUserId) :
      InvitationStep w (some p) .quiet
        (w.write p (markAcceptCommitFailure candidateId authUserId w.now w.users) .ended)
  -- completeInitialPassword and update
  | complete (p : π) (principalId providerUserId : String) (usable : Bool) (users : List AppUser)
      (h : w.phase p = .completing principalId providerUserId)
      (hc : completeInitialPassword principalId providerUserId usable w.now w.users = .ok users) :
      InvitationStep w (some p) .quiet (w.write p users .ended)
  | update (p : π) (id actorId : String) (body : ProfileChange) (users : List AppUser)
      (h : w.phase p = .updating id actorId body)
      (hc : updateProfile id actorId body w.now w.users = .ok users) :
      InvitationStep w (some p) .quiet (w.write p users .ended)

/-- The unique columns `id` and `authUserId`. -/
structure UniqueColumns (users : List AppUser) : Prop where
  ids : (users.map AppUser.id).Nodup
  subjects : ∀ u ∈ users, ∀ v ∈ users, u.authUserId = v.authUserId → u.authUserId ≠ none → u.id = v.id

/-- Whatever the tables held before, no call has started. -/
inductive InvitationReachable : InvitationWorld π → Prop
  | init {w : InvitationWorld π} (hu : UniqueColumns w.users) (hp : ∀ p, w.phase p = .idle) :
      InvitationReachable w
  | step {w w' : InvitationWorld π} {actor : Option π} {event : InvitationEvent} :
      InvitationReachable w → InvitationStep w actor event w' → InvitationReachable w'

end Steps

end AdsManagement.Users
