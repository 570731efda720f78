/-
  File:      Users/IdentityOrphans.lean
  Subject:   WHERE THE IDENTITIES OF INVITATIONS END: when every identity the provider has created
             is deleted again or on the row of its address.

  A call that has the answer of the provider holds an identity until it is on its row or deleted.
  The three ways to dispose of it all ask for the request id of the attempt: once a cancelled row
  is restarted under another one, none of them applies.

  * `Rested` -- what holds of a world no call is at work in;
  * `Assumed` -- no fault, and each answer is a new identity for the address and the request;
  * `Separate` -- a step that keeps attempts at one row apart;
  * `OrphanInv` -- the invariant, with one lemma for a change of a row (`OrphanInv.put`) and one
    for a change of phase (`OrphanInv.goto`);
  * `identities_placed` -- no orphan in a run of such steps; `slow_answer_orphaned` -- and one in a
    run without.
-/
import AdsManagement.Users.InvitationSafety

namespace AdsManagement.Users

open List Function

/-! ## 1. Attempts and identities in flight -/

/-- The attempt a call is at. -/
def CallPhase.attempt : CallPhase → Option Attempt
  | .calling attempt => some attempt
  | .failing attempt _ => some attempt
  | .committing attempt _ => some attempt
  | .marking attempt _ => some attempt
  | .attaching attempt _ => some attempt
  | _ => none

/-- The identity a call holds. -/
def CallPhase.held : CallPhase → Option (Attempt × String)
  | .committing attempt providerUserId => some (attempt, providerUserId)
  | .marking attempt providerUserId => some (attempt, providerUserId)
  | .attaching attempt providerUserId => some (attempt, providerUserId)
  | _ => none

variable {phase : CallPhase} {a : Attempt} {x : String}

theorem CallPhase.attempt_of_held (h : phase.held = some (a, x)) : phase.attempt = some a := by
  cases phase <;> simp [CallPhase.held] at h
  all_goals
    obtain ⟨rfl, rfl⟩ := h
    rfl

variable {π : Type}

/-- The provider knows the id. -/
def InvitationWorld.knows (w : InvitationWorld π) (id : String) : Prop :=
  id ∈ w.created.map ProviderUser.id

/-- The row carries the request of an attempt. -/
def AppUser.carries (u : AppUser) (a : Attempt) : Prop := u.invitationRequestId = some a.requestId

/-- The identity is deleted, or the subject of the row for its address. -/
def Settled (w : InvitationWorld π) (identity : ProviderUser) : Prop :=
  identity.id ∈ w.deleted ∨
    ∃ u ∈ w.users, u.authUserId = some identity.id ∧ u.normalizedEmail = identity.normalizedEmail

/-- No call has started: every identity is settled, the subjects of rows are identities, and a row
    that waits for the provider has none. -/
structure Rested (w : InvitationWorld π) : Prop where
  idle : ∀ p, w.phase p = .idle
  unique : UniqueColumns w.users
  subjects : ∀ u ∈ w.users, ∀ s, u.authUserId = some s → w.knows s
  pending : ∀ u ∈ w.users, u.inviteStatus = .PENDING_PROVIDER → u.authUserId = none
  settled : ∀ identity ∈ w.created, Settled w identity

/-- No call is in flight. -/
def NoneInFlight (w : InvitationWorld π) : Prop := ∀ p, w.phase p = .idle ∨ w.phase p = .ended

/-- What is taken for granted: nothing crashes, every compensation succeeds, no answer is lost, and
    `inviteUserByEmail` answers with a new identity that has the address and the request. -/
def Assumed (w : InvitationWorld π) : InvitationEvent → Prop
  | .quiet => True
  | .restart _ _ => True
  | .answer attempt identity => ¬ w.knows identity.id ∧ identity.matchesAttempt attempt = true
  | .fault => False

/-- A row is restarted only when no call holds an identity of it that still exists, and under a
    request id that no attempt at it in flight has; an identity arrives while its row carries the
    request of its attempt. -/
def Separate (w : InvitationWorld π) : InvitationEvent → Prop
  | .quiet => True
  | .restart userId requestId =>
    (∀ p a x, (w.phase p).held = some (a, x) → a.userId = userId → x ∈ w.deleted) ∧
    ∀ p a, (w.phase p).attempt = some a → a.userId = userId → a.requestId ≠ requestId
  | .answer attempt _ => ∃ u, findById w.users attempt.userId = some u ∧ u.carries attempt
  | .fault => True

/-! ## 2. The invariant -/

/-- The row of an attempt still waits for it: it has no subject. -/
def Waiting (u : AppUser) : Prop :=
  u.authUserId = none ∧ (u.inviteStatus = .PENDING_PROVIDER ∨ u.inviteStatus = .CANCELLED)

/-- The row that carries the request of a call's attempt, by where the call stands. -/
def PhaseRow (deleted : List String) : CallPhase → AppUser → Prop
  | .calling _, u => Waiting u
  | .failing _ _, u => Waiting u
  | .committing _ _, u => Waiting u
  | .marking _ x, u => Waiting u ∨ u.authUserId = some x ∨ u.inviteStatus = .CANCELLED ∧ x ∈ deleted
  | .attaching _ x, u =>
    u.authUserId = none ∧ u.inviteStatus = .CANCELLED ∨ u.authUserId = some x ∨
      u.inviteStatus = .CANCELLED ∧ x ∈ deleted
  | _, _ => True

/-- The attempt has its row, and the row is as the phase asks while it carries the request. -/
def AttemptRow (w : InvitationWorld π) (phase : CallPhase) (a : Attempt) : Prop :=
  ∃ u, findById w.users a.userId = some u ∧ u.normalizedEmail = some a.normalizedEmail ∧
    (u.carries a → PhaseRow w.deleted phase u)

/-- A held identity: known, nobody else's, and deleted once the row is another request's. -/
structure HeldIdentity (w : InvitationWorld π) (a : Attempt) (x : String) : Prop where
  known : w.knows x
  own : ∀ v ∈ w.users, v.authUserId = some x → v.id = a.userId
  current : x ∈ w.deleted ∨ ∃ u, findById w.users a.userId = some u ∧ u.carries a

/-- What the other phases have read. -/
def ReadOk (w : InvitationWorld π) : CallPhase → Prop
  | .restarting invitation ownerId =>
    ∃ u, findById w.users ownerId = some u ∧ u.normalizedEmail = some invitation.normalizedEmail
  | .lookingUp pending x => pending.authUserId = some x ∧ w.knows x
  | .removing pending x => pending.authUserId = some x ∧ w.knows x
  | .finishing pending succeeded =>
    ∃ x, pending.authUserId = some x ∧ (succeeded = true → x ∈ w.deleted)
  | _ => True

structure CallOk (w : InvitationWorld π) (phase : CallPhase) : Prop where
  row : ∀ a, phase.attempt = some a → AttemptRow w phase a
  held : ∀ a x, phase.held = some (a, x) → HeldIdentity w a x
  read : ReadOk w phase

/-- Settled, or in the hands of a call. -/
def Placed (w : InvitationWorld π) (identity : ProviderUser) : Prop :=
  Settled w identity ∨
    ∃ p a, (w.phase p).held = some (a, identity.id) ∧ identity.normalizedEmail = some a.normalizedEmail

structure OrphanInv (w : InvitationWorld π) : Prop where
  unique : UniqueColumns w.users
  subjects : ∀ u ∈ w.users, ∀ s, u.authUserId = some s → w.knows s
  pending : ∀ u ∈ w.users, u.inviteStatus = .PENDING_PROVIDER → u.authUserId = none
  calls : ∀ p, CallOk w (w.phase p)
  /-- Two attempts in flight never share the request their row carries. -/
  alone : ∀ p q a b u, p ≠ q → (w.phase p).attempt = some a → (w.phase q).attempt = some b →
    a.userId = b.userId → a.requestId = b.requestId → findById w.users a.userId = some u → ¬ u.carries a
  heldOnce : ∀ p q a b x, (w.phase p).held = some (a, x) → (w.phase q).held = some (b, x) → p = q
  placed : ∀ identity ∈ w.created, Placed w identity

variable {w : InvitationWorld π}

theorem Rested.orphanInv (h : Rested w) : OrphanInv w where
  unique := h.unique
  subjects := h.subjects
  pending := h.pending
  calls p := by
    rw [h.idle p]
    exact ⟨nofun, nofun, trivial⟩
  alone p q a b u hne ha := by
    rw [h.idle p] at ha
    cases ha
  heldOnce p q a b x ha := by
    rw [h.idle p] at ha
    cases ha
  placed identity hi := .inl (h.settled identity hi)

/-- With nothing in flight, nothing is held. -/
theorem OrphanInv.settled (h : OrphanInv w) (hq : NoneInFlight w) :
    ∀ identity ∈ w.created, Settled w identity := by
  intro identity hi
  rcases h.placed identity hi with hs | ⟨p, a, hp, -⟩
  · exact hs
  · rcases hq p with hidle | hended
    · rw [hidle] at hp
      cases hp
    · rw [hended] at hp
      cases hp

/-! ## 3. A change of a row -/

variable {users : List AppUser} {u u' : AppUser} {id : String}

theorem findById_putUser_self (now : Nat) (hf : findById users id = some u) (hid : u'.id = u.id) :
    findById (putUser now u' users) id = some { u' with updatedAt := now } := by
  obtain ⟨-, rfl⟩ := findById_eq_some hf
  unfold findById putUser at *
  rw [find?_map]
  have hp : ((fun v : AppUser => decide (v.id = u.id)) ∘
      fun v => if v.id = u'.id then { u' with updatedAt := now } else v) = fun v => decide (v.id = u.id) := by
    funext v
    by_cases h : v.id = u'.id
    · simp [h]
    · simp [h]
  rw [hp, hf, Option.map_some, if_pos hid.symm]

theorem findById_putUser_ne {now : Nat} (hne : id ≠ u'.id) :
    findById (putUser now u' users) id = findById users id := by
  unfold findById putUser
  rw [find?_map]
  have hp : ((fun v : AppUser => decide (v.id = id)) ∘
      fun v => if v.id = u'.id then { u' with updatedAt := now } else v) = fun v => decide (v.id = id) := by
    funext v
    by_cases h : v.id = u'.id
    · simp [h]
    · simp [h]
  rw [hp]
  cases hv : users.find? fun v => decide (v.id = id) with
  | none => rfl
  | some v =>
    have hid : v.id = id := by simpa using find?_some hv
    simp [hid, hne]

variable {deleted : List String}

/-- The conditions on rows do not read the time of the last write. -/
theorem PhaseRow.at_time {now : Nat} (h : PhaseRow deleted phase u) :
    PhaseRow deleted phase { u with updatedAt := now } := by
  cases phase <;> exact h

/-- A change of a row that the invariant allows. -/
structure RowMove (w : InvitationWorld π) (u u' : AppUser) : Prop where
  id : u'.id = u.id
  email : u'.normalizedEmail = u.normalizedEmail
  pending : u'.inviteStatus = .PENDING_PROVIDER → u'.authUserId = none
  /-- The subject stays, goes, or is an identity held for the row. -/
  subject : u'.authUserId = u.authUserId ∨ u'.authUserId = none ∨
    ∃ p a x, (w.phase p).held = some (a, x) ∧ a.userId = u.id ∧ u'.authUserId = some x
  /-- Only the subject of a deleted identity goes. -/
  keeps : ∀ s, u.authUserId = some s → u'.authUserId = some s ∨ s ∈ w.deleted
  rows : ∀ p a, (w.phase p).attempt = some a → a.userId = u.id → u'.carries a →
    PhaseRow w.deleted (w.phase p) u'
  held : ∀ p a x, (w.phase p).held = some (a, x) → a.userId = u.id → x ∈ w.deleted ∨ u'.carries a
  alone : ∀ p q a b, p ≠ q → (w.phase p).attempt = some a → (w.phase q).attempt = some b →
    a.userId = u.id → b.userId = u.id → a.requestId = b.requestId → ¬ u'.carries a

theorem OrphanInv.put {w : InvitationWorld π} (h : OrphanInv w) (now : Nat) {u u' : AppUser}
    (hf : findById w.users u.id = some u) (hm : RowMove w u u') :
    OrphanInv { w with users := putUser now u' w.users } := by
  have hu := (findById_eq_some hf).1
  have hself := findById_putUser_self now hf hm.id
  have hother : ∀ {id}, id ≠ u.id → findById (putUser now u' w.users) id = findById w.users id :=
    fun hne => findById_putUser_ne (by rw [hm.id]; exact hne)
  constructor
  case unique =>
    refine h.unique.put now fun v hv hne he => ?_
    by_contra hn
    refine hne ?_
    rw [hm.id]
    rcases hm.subject with hs | hs | ⟨p, a, x, hp, ha, hs⟩
    · exact h.unique.subjects v hv u hu (he.symm.trans hs) hn
    · exact absurd (he.symm.trans hs) hn
    · rw [← ha]
      exact ((h.calls p).held a x hp).own v hv (he.symm.trans hs)
  case subjects =>
    intro v hv s hs
    rcases mem_putUser hv with rfl | ⟨hv, -⟩
    · rcases hm.subject with he | he | ⟨p, a, x, hp, -, he⟩
      · exact h.subjects u hu s (he.symm.trans hs)
      · exact absurd (he.symm.trans hs) nofun
      · have hxs : x = s := Option.some.inj (he.symm.trans hs)
        rw [← hxs]
        exact ((h.calls p).held a x hp).known
    · exact h.subjects v hv s hs
  case pending =>
    intro v hv hp
    rcases mem_putUser hv with rfl | ⟨hv, -⟩
    · exact hm.pending hp
    · exact h.pending v hv hp
  case calls =>
    intro p
    refine ⟨fun a ha => ?_, fun a x hx => ⟨((h.calls p).held a x hx).known, ?_, ?_⟩, ?_⟩
    · obtain ⟨v, hv, hemail, hrow⟩ := (h.calls p).row a ha
      by_cases hid : a.userId = u.id
      · rw [hid, hf] at hv
        cases hv
        refine ⟨{ u' with updatedAt := now }, hid ▸ hself, hm.email.trans hemail, ?_⟩
        exact fun hc => (hm.rows p a ha hid hc).at_time
      · exact ⟨v, (hother hid).trans hv, hemail, hrow⟩
    · intro v hv hs
      rcases mem_putUser hv with rfl | ⟨hv, -⟩
      · rcases hm.subject with he | he | ⟨q, b, y, hq, hb, he⟩
        · exact hm.id.trans (((h.calls p).held a x hx).own u hu (he.symm.trans hs))
        · exact absurd (he.symm.trans hs) nofun
        · cases he.symm.trans hs
          cases h.heldOnce p q a b x hx hq
          cases hx.symm.trans hq
          exact hm.id.trans hb.symm
      · exact ((h.calls p).held a x hx).own v hv hs
    · by_cases hid : a.userId = u.id
      · rcases hm.held p a x hx hid with hd | hc
        · exact .inl hd
        · exact .inr ⟨{ u' with updatedAt := now }, hid ▸ hself, hc⟩
      · rcases ((h.calls p).held a x hx).current with hd | ⟨v, hv, hc⟩
        · exact .inl hd
        · exact .inr ⟨v, (hother hid).trans hv, hc⟩
    · have hread := (h.calls p).read
      cases hp : w.phase p with
      | restarting invitation ownerId =>
        rw [hp] at hread
        obtain ⟨v, hv, hemail⟩ := hread
        by_cases hid : ownerId = u.id
        · rw [hid, hf] at hv
          cases hv
          exact ⟨{ u' with updatedAt := now }, hid ▸ hself, hm.email.trans hemail⟩
        · exact ⟨v, (hother hid).trans hv, hemail⟩
      | lookingUp pending x | removing pending x | finishing pending succeeded =>
        rw [hp] at hread
        exact hread
      | _ => trivial
  case alone =>
    intro p q a b v hne ha hb huser hreq hv hc
    by_cases hid : a.userId = u.id
    · rw [hid] at hv
      cases hself.symm.trans hv
      exact hm.alone p q a b hne ha hb hid (huser.symm.trans hid) hreq hc
    · exact h.alone p q a b v hne ha hb huser hreq ((hother hid).symm.trans hv) hc
  case heldOnce => exact h.heldOnce
  case placed =>
    intro identity hi
    rcases h.placed identity hi with (hd | ⟨v, hv, hs, hemail⟩) | hheld
    · exact .inl (.inl hd)
    · by_cases hid : v.id = u.id
      · cases eq_of_id_eq h.unique.ids hv hu hid
        rcases hm.keeps identity.id hs with hs' | hd
        · exact .inl (.inr ⟨_, mem_putUser_self hu hm.id.symm, hs', hm.email.trans hemail⟩)
        · exact .inl (.inl hd)
      · exact .inl (.inr ⟨v, mem_putUser_of_ne hv (by rw [hm.id]; exact hid), hs, hemail⟩)
    · exact .inr hheld

variable {p : π}

theorem OrphanInv.carries_alone (h : OrphanInv w) {q : π} {b : Attempt} (ha : (w.phase p).attempt = some a)
    (hb : (w.phase q).attempt = some b) (hu : findById w.users a.userId = some u)
    (hid : b.userId = a.userId) (hca : u.carries a) (hcb : u.carries b) : q = p := by
  by_contra hne
  have hreq : a.requestId = b.requestId := Option.some.inj (hca.symm.trans hcb)
  exact h.alone p q a b u (Ne.symm hne) ha hb hid.symm hreq hu hca

/-- A change that leaves the request of the row. -/
theorem OrphanInv.rowMove (h : OrphanInv w) (hf : findById w.users u.id = some u) (hid : u'.id = u.id)
    (hemail : u'.normalizedEmail = u.normalizedEmail)
    (hreq : u'.invitationRequestId = u.invitationRequestId)
    (hpend : u'.inviteStatus = .PENDING_PROVIDER → u'.authUserId = none)
    (hsub : u'.authUserId = u.authUserId ∨ u'.authUserId = none ∨
      ∃ p a x, (w.phase p).held = some (a, x) ∧ a.userId = u.id ∧ u'.authUserId = some x)
    (hkeep : ∀ s, u.authUserId = some s → u'.authUserId = some s ∨ s ∈ w.deleted)
    (hrows : ∀ p a, (w.phase p).attempt = some a → a.userId = u.id → u.carries a →
      PhaseRow w.deleted (w.phase p) u → PhaseRow w.deleted (w.phase p) u') : RowMove w u u' := by
  have hcar : ∀ {a : Attempt}, u'.carries a ↔ u.carries a := by
    unfold AppUser.carries
    rw [hreq]
  refine ⟨hid, hemail, hpend, hsub, hkeep, fun p a ha hau hc => ?_, fun p a x hx hau => ?_, ?_⟩
  · obtain ⟨v, hv, -, hrow⟩ := (h.calls p).row a ha
    rw [hau, hf] at hv
    cases hv
    exact hrows p a ha hau (hcar.mp hc) (hrow (hcar.mp hc))
  · rcases ((h.calls p).held a x hx).current with hd | ⟨v, hv, hc⟩
    · exact .inl hd
    · rw [hau, hf] at hv
      cases hv
      exact .inr (hcar.mpr hc)
  · intro p q a b hne ha hb hau hbu hr hc
    exact h.alone p q a b u hne ha hb (hau.trans hbu.symm) hr (hau ▸ hf) (hcar.mp hc)

/-- The conditions on a row survive where its subject stays, unless it leaves the two statuses an
    attempt waits in. -/
theorem PhaseRow.keep (h : PhaseRow deleted phase u) (hsub : u'.authUserId = u.authUserId)
    (hst : u'.inviteStatus = u.inviteStatus ∨ u'.inviteStatus = .CANCELLED ∨
      u.inviteStatus ≠ .PENDING_PROVIDER ∧ u.inviteStatus ≠ .CANCELLED) : PhaseRow deleted phase u' := by
  have hcan : u.inviteStatus = .CANCELLED → u'.inviteStatus = .CANCELLED := by
    intro hc
    rcases hst with he | he | ⟨-, he⟩
    · exact he.trans hc
    · exact he
    · exact absurd hc he
  have hwait : Waiting u → Waiting u' := by
    rintro ⟨hn, hp | hc⟩
    · rcases hst with he | he | ⟨he, -⟩
      · exact ⟨hsub.trans hn, .inl (he.trans hp)⟩
      · exact ⟨hsub.trans hn, .inr he⟩
      · exact absurd hp he
    · exact ⟨hsub.trans hn, .inr (hcan hc)⟩
  cases phase with
  | calling a | failing a code | committing a x => exact hwait h
  | marking a x =>
    rcases h with hw | hs | ⟨hc, hd⟩
    · exact .inl (hwait hw)
    · exact .inr (.inl (hsub.trans hs))
    · exact .inr (.inr ⟨hcan hc, hd⟩)
  | attaching a x =>
    rcases h with ⟨hn, hc⟩ | hs | ⟨hc, hd⟩
    · exact .inl ⟨hsub.trans hn, hcan hc⟩
    · exact .inr (.inl (hsub.trans hs))
    · exact .inr (.inr ⟨hcan hc, hd⟩)
  | _ => trivial

/-- No attempt in flight has a row that asks to be reconciled and has no subject. -/
theorem PhaseRow.not_reconcile (ha : phase.attempt = some a) (h : PhaseRow deleted phase u)
    (hn : u.authUserId = none) (hs : u.inviteStatus = .RECONCILE_REQUIRED) : False := by
  cases phase <;> simp [PhaseRow, Waiting, CallPhase.attempt, hn, hs] at h ha

/-- A change of the status of a row that keeps its subject. -/
theorem OrphanInv.restatus (h : OrphanInv w) (now : Nat) (hf : findById w.users id = some u)
    (hid : u'.id = u.id) (hemail : u'.normalizedEmail = u.normalizedEmail)
    (hreq : u'.invitationRequestId = u.invitationRequestId) (hsub : u'.authUserId = u.authUserId)
    (hst : u'.inviteStatus = u.inviteStatus ∨ u'.inviteStatus = .CANCELLED ∨
      u.inviteStatus ≠ .PENDING_PROVIDER ∧ u.inviteStatus ≠ .CANCELLED ∧
        u'.inviteStatus ≠ .PENDING_PROVIDER) :
    OrphanInv { w with users := putUser now u' w.users } := by
  obtain ⟨hu, rfl⟩ := findById_eq_some hf
  refine h.put now hf (h.rowMove hf hid hemail hreq (fun hp => ?_) (.inl hsub)
    (fun s hs => .inl (hsub.trans hs)) fun p a ha hau hc hrow => hrow.keep hsub ?_)
  · rcases hst with he | he | ⟨-, -, he⟩
    · exact hsub.trans (h.pending u hu (he.symm.trans hp))
    · exact absurd (he.symm.trans hp) nofun
    · exact absurd hp he
  · rcases hst with he | he | ⟨he, he', -⟩
    · exact .inl he
    · exact .inr (.inl he)
    · exact .inr (.inr ⟨he, he'⟩)

/-! ## 4. Changes of phase, of identities and of the list of rows -/

theorem PhaseRow.mono {deleted' : List String} (hd : ∀ x ∈ deleted, x ∈ deleted')
    (h : PhaseRow deleted phase u) : PhaseRow deleted' phase u := by
  cases phase with
  | marking a x | attaching a x => exact h.imp_right (Or.imp_right fun h => ⟨h.1, hd x h.2⟩)
  | _ => exact h

variable {w' : InvitationWorld π}

/-- A call stays as it should be while rows only join and identities only come and go. -/
theorem CallOk.mono (h : CallOk w phase)
    (hrow : ∀ id u, findById w.users id = some u → findById w'.users id = some u)
    (hsub : ∀ v ∈ w'.users, ∀ s, v.authUserId = some s → v ∈ w.users) (hk : ∀ x, w.knows x → w'.knows x)
    (hd : ∀ x ∈ w.deleted, x ∈ w'.deleted) : CallOk w' phase := by
  refine ⟨fun a ha => ?_, fun a x hx => ?_, ?_⟩
  · obtain ⟨u, hu, hemail, hp⟩ := h.row a ha
    exact ⟨u, hrow _ u hu, hemail, fun hc => (hp hc).mono hd⟩
  · obtain ⟨hknown, hown, hcur⟩ := h.held a x hx
    refine ⟨hk x hknown, fun v hv hs => hown v (hsub v hv x hs) hs, ?_⟩
    exact hcur.imp (hd x) fun ⟨u, hu, hc⟩ => ⟨u, hrow _ u hu, hc⟩
  · have hread := h.read
    cases phase with
    | restarting invitation ownerId =>
      obtain ⟨u, hu, hemail⟩ := hread
      exact ⟨u, hrow _ u hu, hemail⟩
    | lookingUp pending x | removing pending x => exact ⟨hread.1, hk x hread.2⟩
    | finishing pending succeeded =>
      obtain ⟨x, hx, hdel⟩ := hread
      exact ⟨x, hx, fun hs => hd x (hdel hs)⟩
    | _ => trivial

section Phases

variable [DecidableEq π]

@[simp] theorem InvitationWorld.goto_phase_self (w : InvitationWorld π) (p : π) (phase : CallPhase) :
    (w.goto p phase).phase p = phase := update_self ..

theorem InvitationWorld.goto_phase_ne (w : InvitationWorld π) {q : π} (h : q ≠ p) (phase : CallPhase) :
    (w.goto p phase).phase q = w.phase q := update_of_ne h ..

/-- **A change of phase**: the call goes on with the identity it has or has settled it, and an
    attempt it starts is the only one with its request. -/
theorem OrphanInv.goto (h : OrphanInv w) (hrow : ∀ a, phase.attempt = some a → AttemptRow w phase a)
    (hheld : ∀ a x, phase.held = some (a, x) → (w.phase p).held = some (a, x)) (hread : ReadOk w phase)
    (halone : ∀ a, phase.attempt = some a → (w.phase p).attempt = some a ∨
      ∀ q b u, q ≠ p → (w.phase q).attempt = some b → a.userId = b.userId → a.requestId = b.requestId →
        findById w.users a.userId = some u → ¬ u.carries a)
    (hgive : ∀ a x, (w.phase p).held = some (a, x) → phase.held = some (a, x) ∨
      ∀ identity ∈ w.created, identity.id = x → identity.normalizedEmail = some a.normalizedEmail →
        Settled w identity) :
    OrphanInv (w.goto p phase) := by
  have hok : CallOk w phase := ⟨hrow, fun a x hx => (h.calls p).held a x (hheld a x hx), hread⟩
  have hsame : ∀ {ψ}, CallOk w ψ → CallOk (w.goto p phase) ψ :=
    fun hψ => hψ.mono (fun _ _ hu => hu) (fun v hv _ _ => hv) (fun _ hx => hx) fun _ hx => hx
  refine ⟨h.unique, h.subjects, h.pending, fun q => ?_, ?_, ?_, fun identity hi => ?_⟩
  · by_cases hq : q = p
    · rw [hq, w.goto_phase_self]
      exact hsame hok
    · rw [w.goto_phase_ne hq]
      exact hsame (h.calls q)
  · -- of two different calls at most one is the one that moves
    have key : ∀ q a b u, q ≠ p → phase.attempt = some a → (w.phase q).attempt = some b →
        a.userId = b.userId → a.requestId = b.requestId → findById w.users a.userId = some u →
        ¬ u.carries a := by
      intro q a b u hq ha hb huser hreq hu
      rcases halone a ha with ha' | hfree
      · exact h.alone p q a b u (Ne.symm hq) ha' hb huser hreq hu
      · exact hfree q b u hq hb huser hreq hu
    intro q r a b u hne ha hb huser hreq hu hc
    by_cases hq : q = p
    · subst hq
      rw [w.goto_phase_self] at ha
      rw [w.goto_phase_ne (Ne.symm hne)] at hb
      exact key r a b u (Ne.symm hne) ha hb huser hreq hu hc
    · rw [w.goto_phase_ne hq] at ha
      by_cases hr : r = p
      · subst hr
        rw [w.goto_phase_self] at hb
        refine key q b a u hq hb ha huser.symm hreq.symm (huser ▸ hu) ?_
        unfold AppUser.carries at *
        rw [← hreq]
        exact hc
      · rw [w.goto_phase_ne hr] at hb
        exact h.alone q r a b u hne ha hb huser hreq hu hc
  · have hback : ∀ q a x, ((w.goto p phase).phase q).held = some (a, x) →
        (w.phase q).held = some (a, x) := by
      intro q a x hx
      by_cases hq : q = p
      · subst hq
        rw [w.goto_phase_self] at hx
        exact hheld a x hx
      · rwa [w.goto_phase_ne hq] at hx
    intro q r a b x ha hb
    exact h.heldOnce q r a b x (hback q a x ha) (hback r b x hb)
  · rcases h.placed identity hi with hs | ⟨q, a, hq, hemail⟩
    · exact .inl hs
    · by_cases hqp : q = p
      · subst hqp
        rcases hgive a identity.id hq with hx | hset
        · exact .inr ⟨q, a, by rw [w.goto_phase_self]; exact hx, hemail⟩
        · exact .inl (hset identity hi rfl hemail)
      · exact .inr ⟨q, a, by rw [w.goto_phase_ne hqp]; exact hq, hemail⟩

/-- A call that is at no attempt and starts none. -/
theorem OrphanInv.goto_plain (h : OrphanInv w) (ha : phase.attempt = none) (hp : (w.phase p).held = none)
    (hread : ReadOk w phase) :
    OrphanInv (w.goto p phase) := by
  have hnone : phase.held = none := by
    cases hx : phase.held with
    | none => rfl
    | some ax => exact absurd ((CallPhase.attempt_of_held hx).symm.trans ha) nofun
  refine h.goto (fun a h' => absurd (ha.symm.trans h') nofun)
    (fun a x hx => absurd (hnone.symm.trans hx) nofun) hread
    (fun a h' => absurd (ha.symm.trans h') nofun) (fun a x hx => absurd (hp.symm.trans hx) nofun)

end Phases

/-- Identities may be deleted, and time may pass. -/
theorem OrphanInv.of_deleted (h : OrphanInv w) (hu : w'.users = w.users) (hp : w'.phase = w.phase)
    (hc : w'.created = w.created) (hd : ∀ x ∈ w.deleted, x ∈ w'.deleted) :
    OrphanInv w' := by
  have hk : ∀ x, w.knows x → w'.knows x := fun x hx => by
    unfold InvitationWorld.knows at *
    rwa [hc]
  refine ⟨hu ▸ h.unique, fun u hmem s hs => hk s (h.subjects u (hu ▸ hmem) s hs), hu ▸ h.pending,
    fun p => ?_, ?_, ?_, fun identity hi => ?_⟩
  · rw [hp]
    exact (h.calls p).mono (fun _ _ hv => hu ▸ hv) (fun v hv _ _ => hu ▸ hv) hk hd
  · rw [hp, hu]
    exact h.alone
  · rw [hp]
    exact h.heldOnce
  · rw [hc] at hi
    rcases h.placed identity hi with (hx | hrow) | hheld
    · exact .inl (.inl (hd _ hx))
    · exact .inl (.inr (hu ▸ hrow))
    · exact .inr (hp ▸ hheld)

theorem findById_append {new : AppUser} (h : findById users id = some u) :
    findById (users ++ [new]) id = some u := by
  unfold findById at *
  rw [find?_append, h]
  rfl

/-- A new row. -/
theorem OrphanInv.insert {w : InvitationWorld π} (h : OrphanInv w) {new : AppUser}
    (hf : findById w.users new.id = none) (hs : new.authUserId = none) :
    OrphanInv { w with users := w.users ++ [new] } := by
  have hold : ∀ v ∈ w.users ++ [new], ∀ s, v.authUserId = some s → v ∈ w.users := by
    intro v hv s hvs
    rcases mem_append.mp hv with hv | hv
    · exact hv
    · rw [mem_singleton.mp hv, hs] at hvs
      cases hvs
  refine ⟨h.unique.insert hf hs, fun u hu s hus => h.subjects u (hold u hu s hus) s hus,
    fun u hu hp => ?_, fun p => ?_, fun p q a b u hne ha hb huser hreq hu => ?_, h.heldOnce,
    fun identity hi => ?_⟩
  · rcases mem_append.mp hu with hu | hu
    · exact h.pending u hu hp
    · rw [mem_singleton.mp hu]
      exact hs
  · exact (h.calls p).mono (fun _ _ hu => findById_append hu) hold (fun _ hx => hx) fun _ hx => hx
  · obtain ⟨v, hv, -⟩ := (h.calls p).row a ha
    have hvu : v = u := Option.some.inj ((findById_append hv).symm.trans hu)
    exact h.alone p q a b u hne ha hb huser hreq (hvu ▸ hv)
  · rcases h.placed identity hi with (hd | ⟨u, hu, hrow⟩) | hheld
    · exact .inl (.inl hd)
    · exact .inl (.inr ⟨u, mem_append_left _ hu, hrow⟩)
    · exact .inr hheld

section Attempts

variable [DecidableEq π]

/-- A call lets go of an identity that is deleted or on its row. -/
theorem OrphanInv.settle (h : OrphanInv w) (hp : (w.phase p).held = some (a, x)) (ha : phase.attempt = none)
    (hread : ReadOk w phase)
    (hx : x ∈ w.deleted ∨ ∃ u, findById w.users a.userId = some u ∧ u.authUserId = some x) :
    OrphanInv (w.goto p phase) := by
  refine h.goto (fun b hb => absurd (ha.symm.trans hb) nofun) (fun b y hy => ?_) hread
    (fun b hb => absurd (ha.symm.trans hb) nofun) fun b y hy => .inr fun identity _ hid hemail => ?_
  · exact absurd ((CallPhase.attempt_of_held hy).symm.trans ha) nofun
  · cases hp.symm.trans hy
    rw [← hid] at hx
    rcases hx with hd | ⟨u, hu, hsub⟩
    · exact .inl hd
    · obtain ⟨v, hv, hrow, -⟩ := (h.calls p).row a (CallPhase.attempt_of_held hp)
      cases hu.symm.trans hv
      exact .inr ⟨u, (findById_eq_some hu).1, hsub, hrow.trans hemail.symm⟩

/-- A call goes on with the attempt it is at. -/
theorem OrphanInv.carryOn (h : OrphanInv w) (hp : (w.phase p).attempt = some a)
    (ha : phase.attempt = some a) (hheld : phase.held = (w.phase p).held) (hread : ReadOk w phase)
    (hrow : ∀ u, findById w.users a.userId = some u → u.carries a → PhaseRow w.deleted (w.phase p) u →
      PhaseRow w.deleted phase u) : OrphanInv (w.goto p phase) := by
  refine h.goto (fun b hb => ?_) (fun b x hx => hheld ▸ hx) hread (fun b hb => ?_)
    fun b x hx => .inl (hheld.trans hx)
  · cases ha.symm.trans hb
    obtain ⟨u, hu, hemail, hph⟩ := (h.calls p).row a hp
    exact ⟨u, hu, hemail, fun hc => hrow u hu hc (hph hc)⟩
  · cases ha.symm.trans hb
    exact .inl hp

/-- A call starts an attempt nobody else is at. -/
theorem OrphanInv.start (h : OrphanInv w) (hp : (w.phase p).held = none)
    (hu : findById w.users a.userId = some u) (hemail : u.normalizedEmail = some a.normalizedEmail)
    (hw : u.carries a → Waiting u)
    (halone : ∀ q b, (w.phase q).attempt = some b → b.userId = a.userId → b.requestId = a.requestId →
      ¬ u.carries a) : OrphanInv (w.goto p (.calling a)) := by
  refine h.goto (fun b hb => ?_) nofun trivial (fun b hb => .inr fun q c v _ hc huser hreq hv => ?_)
    fun b x hx => absurd (hp.symm.trans hx) nofun
  · cases hb
    exact ⟨u, hu, hemail, hw⟩
  · cases hb
    cases hu.symm.trans hv
    exact halone q c hc huser.symm hreq.symm

/-- **The answer of the provider**, for a row that carries the request. -/
theorem OrphanInv.answer (h : OrphanInv w) {identity : ProviderUser} (hp : w.phase p = .calling a)
    (hnew : ¬ w.knows identity.id) (hemail : identity.normalizedEmail = some a.normalizedEmail)
    (hcar : ∃ u, findById w.users a.userId = some u ∧ u.carries a) :
    OrphanInv { w.goto p (.committing a identity.id) with created := identity :: w.created } := by
  have hpa : (w.phase p).attempt = some a := by rw [hp]; rfl
  have hattempt : ∀ q, ((w.goto p (.committing a identity.id)).phase q).attempt = (w.phase q).attempt := by
    intro q
    by_cases hq : q = p
    · rw [hq, w.goto_phase_self, hpa]
      rfl
    · rw [w.goto_phase_ne hq]
  have hknows : ∀ x, w.knows x →
      InvitationWorld.knows { w.goto p (.committing a identity.id) with created := identity :: w.created } x :=
    fun x hx => mem_cons_of_mem _ hx
  have hmono : ∀ {ψ}, CallOk w ψ →
      CallOk { w.goto p (.committing a identity.id) with created := identity :: w.created } ψ :=
    fun hψ => hψ.mono (fun _ _ hu => hu) (fun v hv _ _ => hv) hknows fun _ hx => hx
  -- who else holds an identity held it before, and it is another one
  have hother : ∀ q b x, q ≠ p → (w.phase q).held = some (b, x) → x ≠ identity.id := by
    rintro q b x - hx rfl
    exact hnew ((h.calls q).held b _ hx).known
  refine ⟨h.unique, fun u hu s hs => hknows s (h.subjects u hu s hs), h.pending, fun q => ?_,
    fun q r b c u hne hb hc => ?_, fun q r b c x hb hc => ?_, fun i hi => ?_⟩
  · by_cases hq : q = p
    · rw [hq, w.goto_phase_self]
      refine ⟨fun b hb => ?_, fun b x hx => ?_, trivial⟩
      · cases hb
        obtain ⟨u, hu, he, hrow⟩ := (h.calls p).row a hpa
        rw [hp] at hrow
        exact ⟨u, hu, he, hrow⟩
      · cases hx
        refine ⟨mem_cons_self, fun v hv hs => ?_, .inr hcar⟩
        exact absurd (h.subjects v hv _ hs) hnew
    · rw [w.goto_phase_ne hq]
      exact hmono (h.calls q)
  · rw [hattempt] at hb hc
    exact h.alone q r b c u hne hb hc
  · by_cases hq : q = p
    · by_cases hr : r = p
      · rw [hq, hr]
      · rw [hq, w.goto_phase_self] at hb
        rw [w.goto_phase_ne hr] at hc
        cases hb
        exact absurd rfl (hother r c _ hr hc)
    · rw [w.goto_phase_ne hq] at hb
      by_cases hr : r = p
      · rw [hr, w.goto_phase_self] at hc
        cases hc
        exact absurd rfl (hother q b _ hq hb)
      · rw [w.goto_phase_ne hr] at hc
        exact h.heldOnce q r b c x hb hc
  · rcases mem_cons.mp hi with rfl | hi
    · exact .inr ⟨p, a, by rw [w.goto_phase_self]; rfl, hemail⟩
    · rcases h.placed i hi with hs | ⟨q, b, hq, he⟩
      · exact .inl hs
      · have hqp : q ≠ p := by
          rintro rfl
          rw [hp] at hq
          cases hq
        exact .inr ⟨q, b, by rw [w.goto_phase_ne hqp]; exact hq, he⟩

end Attempts

/-! ## 5. Steps -/

/-- The identity a call holds is no other row's. -/
theorem OrphanInv.held_not_taken (h : OrphanInv w) (hp : (w.phase p).held = some (a, x)) :
    subjectTaken w.users x a.userId = false := by
  unfold subjectTaken
  cases ho : findBySubject w.users x with
  | none => rfl
  | some owner =>
    have hs : owner.authUserId = some x := by simpa using find?_some ho
    have hid := ((h.calls p).held a x hp).own owner (mem_of_find?_eq_some ho) hs
    simp [hid]

/-- The row a call writes the identity it holds on. -/
theorem OrphanInv.putSubject (h : OrphanInv w) (now : Nat) (hp : (w.phase p).held = some (a, x))
    (hf : findById w.users a.userId = some u) (hc : u.carries a) (hid : u'.id = u.id)
    (hemail : u'.normalizedEmail = u.normalizedEmail)
    (hreq : u'.invitationRequestId = u.invitationRequestId) (hst : u'.inviteStatus ≠ .PENDING_PROVIDER)
    (hsub : u'.authUserId = some x) (hkeep : ∀ s, u.authUserId = some s → s = x)
    (hrow : PhaseRow w.deleted (w.phase p) u') :
    OrphanInv { w with users := putUser now u' w.users } := by
  have huid : u.id = a.userId := (findById_eq_some hf).2
  have hf' : findById w.users u.id = some u := huid ▸ hf
  refine h.put now hf' (h.rowMove hf' hid hemail hreq (fun hpend => absurd hpend hst)
    (.inr (.inr ⟨p, a, x, hp, huid.symm, hsub⟩)) (fun s hs => .inl ?_) fun q b hb hbu hcb _ => ?_)
  · rw [hkeep s hs]
    exact hsub
  · have hq := h.carries_alone (CallPhase.attempt_of_held hp) hb hf (hbu.trans huid) hc hcb
    rw [hq]
    exact hrow

section Steps

variable [DecidableEq π]

theorem InvitationWorld.write_goto (w : InvitationWorld π) (p : π) (users : List AppUser)
    (phase phase' : CallPhase) : (w.write p users phase).goto p phase' = w.write p users phase' := by
  unfold InvitationWorld.write InvitationWorld.goto
  rw [update_idem]

theorem InvitationWorld.write_phase_self (w : InvitationWorld π) (p : π) (users : List AppUser)
    (phase : CallPhase) : (w.write p users phase).phase p = phase := update_self ..

section

variable (h : OrphanInv w) (hp : w.phase p = .committing a x)
include h hp

/-- A call whose commit has come through, or not: it holds the identity as one it may have to mark. -/
theorem OrphanInv.toMarking : OrphanInv (w.goto p (.marking a x)) := by
  have ha : (w.phase p).attempt = some a := by rw [hp]; rfl
  refine h.carryOn ha rfl (by rw [hp]; rfl) trivial fun u _ _ hrow => .inl ?_
  rw [hp] at hrow
  exact hrow

theorem OrphanInv.commitLost (hc : commitInvitation a x w.now w.users = .ok users) :
    OrphanInv (w.write p users (.marking a x)) := by
  obtain ⟨u, hf, hst, hr, -, -, rfl⟩ := commitInvitation_cases hc
  have h' := h.toMarking hp
  have hheld : ((w.goto p (.marking a x)).phase p).held = some (a, x) := by rw [w.goto_phase_self]; rfl
  have hnone := h.pending u (findById_eq_some hf).1 hst
  refine h'.putSubject w.now hheld hf hr rfl rfl rfl nofun rfl (fun s hs => ?_) ?_
  · exact absurd (hnone.symm.trans hs) nofun
  · rw [w.goto_phase_self]
    exact .inr (.inl rfl)

theorem OrphanInv.commit
    (hc : commitInvitation a x w.now w.users = .ok users) : OrphanInv (w.write p users .ended) := by
  have h' := h.commitLost hp hc
  have hheld : ((w.write p users (.marking a x)).phase p).held = some (a, x) := by
    rw [w.write_phase_self]
    rfl
  rw [← w.write_goto p _ (.marking a x)]
  obtain ⟨u, hf, -, -, -, -, rfl⟩ := commitInvitation_cases hc
  exact h'.settle hheld rfl trivial (.inr ⟨_, findById_putUser_self w.now hf rfl, rfl⟩)

end

section

variable (h : OrphanInv w)
include h

theorem OrphanInv.markLocal (hp : w.phase p = .marking a x) :
    OrphanInv (w.write p (markProviderSucceededLocalFailure a x w.now w.users) (.attaching a x)) := by
  have hheld : (w.phase p).held = some (a, x) := by rw [hp]; rfl
  have ha : (w.phase p).attempt = some a := by rw [hp]; rfl
  rcases markProviderSucceededLocalFailure_cases a x w.now w.users with
    ⟨hno, he⟩ | ⟨u, hf, hst, hr, he⟩
  · rw [he]
    refine h.carryOn ha rfl (by rw [hp]; rfl) trivial fun u hu hc hrow => ?_
    rw [hp] at hrow
    rcases hrow with ⟨hn, hpend | hcan⟩ | hrow
    · rcases hno u hu with hne | hne
      · exact absurd hpend hne
      · exact absurd hc hne
    · exact .inl ⟨hn, hcan⟩
    · exact .inr hrow
  · have huid : u.id = a.userId := (findById_eq_some hf).2
    have hfree : subjectTaken w.users x u.id = false := huid ▸ h.held_not_taken hheld
    have hnone := h.pending u (findById_eq_some hf).1 hst
    simp only [hfree] at he
    rw [he]
    let u' : AppUser :=
      { u with
        authUserId := some x
        inviteStatus := .RECONCILE_REQUIRED
        invitationErrorCode := some .INVITATION_LOCAL_COMMIT_FAILED }
    have h' : OrphanInv { w with users := putUser w.now u' w.users } := by
      refine h.putSubject w.now hheld hf hr rfl rfl rfl nofun rfl (fun s hs => ?_) ?_
      · exact absurd (hnone.symm.trans hs) nofun
      · rw [hp]
        exact .inr (.inl rfl)
    refine h'.carryOn ha rfl hheld.symm trivial fun v hv _ _ => ?_
    cases (findById_putUser_self w.now hf (rfl : u'.id = u.id)).symm.trans hv
    exact .inr (.inl rfl)

theorem OrphanInv.attach (hp : w.phase p = .attaching a x) :
    OrphanInv (w.write p (attachCancelledIdentity a x w.now w.users).2
      (if (attachCancelledIdentity a x w.now w.users).1 then .compensating a.userId else .ended)) := by
  have hheld : (w.phase p).held = some (a, x) := by rw [hp]; rfl
  have ha : (w.phase p).attempt = some a := by rw [hp]; rfl
  rcases attachCancelledIdentity_cases a x w.now w.users with
    ⟨he, hno⟩ | ⟨u, hf, hst, hr, hother, -, he⟩
  · rw [he]
    refine h.settle hheld rfl trivial ?_
    rcases ((h.calls p).held a x hheld).current with hd | ⟨u, hu, hc⟩
    · exact .inl hd
    · obtain ⟨v, hv, hemail, hrow⟩ := (h.calls p).row a ha
      cases hu.symm.trans hv
      rw [hp] at hrow
      rcases hrow hc with ⟨hn, hcan⟩ | hs | ⟨-, hd⟩
      · -- the row waits for the identity, so none of the refusals applies
        rcases hno u hu with hne | hne | hne | ⟨y, hy, -⟩ | ht
        · exact absurd hcan hne
        · exact absurd hc hne
        · exact absurd hemail hne
        · exact absurd (hn.symm.trans hy) nofun
        · rw [(findById_eq_some hu).2, h.held_not_taken hheld] at ht
          cases ht
      · exact .inr ⟨u, hu, hs⟩
      · exact .inl hd
  · rw [he]
    let u' : AppUser :=
      { u with
        authUserId := some x
        invitationErrorCode := some .INVITATION_PROVIDER_COMPENSATION_REQUIRED }
    have hne : u'.inviteStatus ≠ .PENDING_PROVIDER := by
      rw [hst]
      exact nofun
    have h' : OrphanInv { w with users := putUser w.now u' w.users } := by
      refine h.putSubject w.now hheld hf hr rfl rfl rfl hne rfl hother ?_
      rw [hp]
      exact .inr (.inl rfl)
    refine h'.settle hheld rfl trivial (.inr ⟨{ u' with updatedAt := w.now }, ?_, rfl⟩)
    exact findById_putUser_self w.now hf rfl

/-- The end of a compensation: a subject goes only when its identity is deleted. -/
theorem OrphanInv.finish {pending : AppUser} {succeeded : Bool}
    (hp : w.phase p = .finishing pending succeeded) :
    OrphanInv (w.write p (finishCompensation pending succeeded w.now w.users) .ended) := by
  have hnone : (w.phase p).held = none := by rw [hp]; rfl
  have hread := (h.calls p).read
  rw [hp] at hread
  obtain ⟨x, hx, hdel⟩ := hread
  rcases finishCompensation_cases pending succeeded w.now w.users with he | ⟨u, hf, hst, hsub, hr, he⟩
  · rw [he]
    exact h.goto_plain rfl hnone trivial
  · rw [he]
    have hux : u.authUserId = some x := hsub.trans hx
    have hf' : findById w.users u.id = some u := (findById_eq_some hf).2 ▸ hf
    cases succeeded with
    | false =>
      let u' : AppUser := { u with invitationErrorCode := some .INVITATION_PROVIDER_COMPENSATION_REQUIRED }
      have h' : OrphanInv { w with users := putUser w.now u' w.users } :=
        h.restatus w.now hf rfl rfl rfl rfl (.inl rfl)
      exact h'.goto_plain rfl hnone trivial
    | true =>
      have hd := hdel rfl
      have hsame : ∀ {s}, u.authUserId = some s → s = x := fun hs => Option.some.inj (hs.symm.trans hux)
      let u' : AppUser := { u with authUserId := none, invitationErrorCode := none }
      have hrows : ∀ phase, PhaseRow w.deleted phase u → PhaseRow w.deleted phase u' := by
        intro phase hrow
        cases phase with
        | calling c | failing c code | committing c y => exact absurd (hrow.1.symm.trans hux) nofun
        | marking c y =>
          rcases hrow with hw | hs | hc
          · exact absurd (hw.1.symm.trans hux) nofun
          · exact .inr (.inr ⟨hst, hsame hs ▸ hd⟩)
          · exact .inr (.inr hc)
        | attaching c y => exact .inl ⟨rfl, hst⟩
        | _ => trivial
      have h' : OrphanInv { w with users := putUser w.now u' w.users } :=
        h.put w.now hf' (h.rowMove hf' rfl rfl rfl (fun _ => rfl) (.inr (.inl rfl))
          (fun s hs => .inr (hsame hs ▸ hd)) fun q b _ _ _ hrow => hrows _ hrow)
      exact h'.goto_plain rfl hnone trivial

theorem OrphanInv.markFailure {code : InvitationErrorCode} (hp : w.phase p = .failing a code) :
    OrphanInv (w.write p (markInvitationFailure a code w.now w.users) .ended) := by
  have ha : (w.phase p).attempt = some a := by rw [hp]; rfl
  have h' : OrphanInv (w.goto p .ended) := h.goto_plain rfl (by rw [hp]; rfl) trivial
  rcases markInvitationFailure_cases a code w.now w.users with he | ⟨u, hf, hst, hr, he⟩
  · rw [he]
    exact h'
  · rw [he]
    have huid : u.id = a.userId := (findById_eq_some hf).2
    have hf' : findById w.users u.id = some u := huid ▸ hf
    refine h'.put w.now hf' (h'.rowMove hf' rfl rfl rfl nofun (.inl rfl) (fun s hs => .inl hs) ?_)
    intro q b hb hbu hcb _
    -- no other call is at an attempt with this request
    have hq : q ≠ p := by
      rintro rfl
      rw [w.goto_phase_self] at hb
      cases hb
    rw [w.goto_phase_ne hq] at hb
    exact absurd (h.carries_alone ha hb hf (hbu.trans huid) hr hcb) hq

theorem OrphanInv.claim {requestId email : String} (hp : w.phase p = .claimingRetry id requestId)
    (hc : claimRetry id w.now w.users = .ok (some email, users)) :
    OrphanInv (w.write p users (.calling ⟨id, email, requestId, .retry⟩)) := by
  obtain ⟨u, hf, hst, hnone, -, hemail, rfl⟩ := claimRetry_cases hc
  have huid : u.id = id := (findById_eq_some hf).2
  have hf' : findById w.users u.id = some u := huid ▸ hf
  have hfree : ∀ q b, (w.phase q).attempt = some b → b.userId = u.id → ¬ u.carries b := by
    intro q b hb hbu hcb
    obtain ⟨v, hv, -, hrow⟩ := (h.calls q).row b hb
    rw [hbu, hf'] at hv
    cases hv
    exact (hrow hcb).not_reconcile hb hnone hst
  let u' : AppUser :=
    { u with inviteStatus := .PENDING_PROVIDER, invitationErrorCode := some .INVITATION_RETRY_IN_PROGRESS }
  have h' : OrphanInv { w with users := putUser w.now u' w.users } := by
    refine h.put w.now hf' (h.rowMove hf' rfl rfl rfl (fun _ => hnone) (.inl rfl)
      (fun s hs => .inl hs) fun q b hb hbu hcb _ => absurd hcb (hfree q b hb hbu))
  refine h'.start (u := { u' with updatedAt := w.now }) (by rw [hp]; rfl)
    (findById_putUser_self w.now hf rfl) hemail.symm (fun _ => ⟨hnone, .inl rfl⟩) ?_
  intro q b hb hbu hreq hcar
  refine hfree q b hb (hbu.trans huid.symm) ?_
  unfold AppUser.carries at *
  rw [hreq]
  exact hcar

/-- A restart that no attempt in flight has a part in. -/
theorem OrphanInv.restart {invitation : Invitation} {ownerId : String}
    (hp : w.phase p = .restarting invitation ownerId)
    (hc : restartInvitation invitation ownerId w.now w.users = .ok (some users))
    (hs : Separate w (.restart ownerId invitation.requestId)) :
    OrphanInv (w.write p users
      (.calling ⟨ownerId, invitation.normalizedEmail, invitation.requestId, .request⟩)) := by
  have hread := (h.calls p).read
  rw [hp] at hread
  obtain ⟨v, hv, hemail⟩ := hread
  obtain ⟨u, hf, hcan, -, -, rfl⟩ := restartInvitation_cases hc
  obtain rfl : u = v := Option.some.inj (hf.symm.trans hv)
  have huid : u.id = ownerId := (findById_eq_some hf).2
  have hf' : findById w.users u.id = some u := huid ▸ hf
  simp only [canRestartCancelledInvitation, Bool.and_eq_true, decide_eq_true_eq] at hcan
  have hnone : u.authUserId = none := hcan.1.2
  let u' := invitation.restarted u
  have hfree : ∀ q b, (w.phase q).attempt = some b → b.userId = u.id → ¬ u'.carries b := by
    intro q b hb hbu hcb
    exact hs.2 q b hb (hbu.trans huid) (Option.some.inj hcb).symm
  have h' : OrphanInv { w with users := putUser w.now u' w.users } := by
    refine h.put w.now hf' ⟨rfl, rfl, fun _ => hnone, .inl rfl, fun s hs => .inl hs,
      fun q b hb hbu hcb => absurd hcb (hfree q b hb hbu), fun q b x hx hbu => .inl ?_,
      fun q r b c _ hb _ hbu _ _ => hfree q b hb hbu⟩
    exact hs.1 q b x hx (hbu.trans huid)
  refine h'.start (u := { u' with updatedAt := w.now }) (by rw [hp]; rfl)
    (findById_putUser_self w.now hf rfl) hemail (fun _ => ⟨hnone, .inl rfl⟩) ?_
  intro q b hb hbu hreq _
  exact hs.2 q b hb hbu hreq

theorem OrphanInv.create {invitation : Invitation} (hp : w.phase p = .creating invitation)
    (hc : createInvitation invitation id w.now w.users = .ok users) :
    OrphanInv (w.write p users
      (.calling ⟨id, invitation.normalizedEmail, invitation.requestId, .request⟩)) := by
  obtain ⟨hfresh, -, -, rfl⟩ := createInvitation_cases hc
  let new := invitation.newUser id w.now
  have h' : OrphanInv { w with users := w.users ++ [new] } := h.insert hfresh rfl
  have hnew : findById (w.users ++ [new]) id = some new := by
    unfold findById at *
    rw [find?_append, hfresh]
    simp [new, Invitation.newUser]
  refine h'.start (u := new) (by rw [hp]; rfl) hnew rfl (fun _ => ⟨rfl, .inl rfl⟩) ?_
  intro q b hb hbu _ _
  obtain ⟨v, hv, -⟩ := (h.calls q).row b hb
  rw [hbu, hfresh] at hv
  cases hv

/-- What a compensation has read of a row. -/
theorem OrphanInv.readPending (hp : (w.phase p).held = none) :
    OrphanInv (w.goto p (pendingPhase id w.users)) := by
  unfold pendingPhase
  split
  · exact h.goto_plain rfl hp trivial
  · rename_i pending hpend
    split
    · exact h.goto_plain rfl hp trivial
    · rename_i x hx
      refine h.goto_plain rfl hp ⟨hx, ?_⟩
      obtain ⟨hf, -⟩ := Option.filter_eq_some_iff.mp hpend
      exact h.subjects pending (findById_eq_some hf).1 x hx

end

theorem held_of_holdsNothing (h : phase.holdsNothing = true) : phase.held = none := by
  cases phase <;> first | rfl | cases h

theorem attempt_of_isCall (h : phase.isCall = true) : phase.attempt = none := by
  cases phase <;> first | rfl | cases h

omit [DecidableEq π] in
theorem readOk_of_isCall (w : InvitationWorld π) (h : phase.isCall = true) : ReadOk w phase := by
  cases phase with
  | restarting invitation ownerId | lookingUp pending x | removing pending x
  | finishing pending succeeded => cases h
  | _ => trivial

/-- **A step** that is no fault and keeps attempts apart keeps the invariant. -/
theorem OrphanInv.step {actor : Option π} {event : InvitationEvent} (h : OrphanInv w)
    (hs : InvitationStep w actor event w') (ha : Assumed w event) (hsep : Separate w event) :
    OrphanInv w' := by
  cases hs with
  | tick ms => exact h.of_deleted rfl rfl rfl fun _ hx => hx
  | call p phase hp hc =>
    exact h.goto_plain (attempt_of_isCall hc) (by rw [hp]; rfl) (readOk_of_isCall w hc)
  | abort p hp => exact h.goto_plain rfl (held_of_holdsNothing hp) trivial
  | searchRequest p invitation hp =>
    split
    · exact h.goto_plain rfl (by rw [hp]; rfl) trivial
    · exact h.goto_plain rfl (by rw [hp]; rfl) trivial
  | searchOwner p invitation hp =>
    split
    · exact h.goto_plain rfl (by rw [hp]; rfl) trivial
    · rename_i owner ho
      have hmem : owner ∈ w.users := mem_of_find?_eq_some ho
      refine h.goto_plain rfl (by rw [hp]; rfl) ⟨owner, findById_of_mem h.unique.ids hmem, ?_⟩
      simpa using find?_some ho
  | create p invitation id users hp hc => exact h.create hp hc
  | restart p invitation ownerId users hp hc => exact h.restart hp hc hsep
  | searchRetry p id hp =>
    have hnone : (w.phase p).held = none := by rw [hp]; rfl
    unfold retryPhase
    split
    · exact h.goto_plain rfl hnone trivial
    · split
      · exact h.goto_plain rfl hnone trivial
      · split
        · exact h.goto_plain rfl hnone trivial
        · exact h.goto_plain rfl hnone trivial
  | claim p id requestId email users hp hc => exact h.claim hp hc
  | searchCancel p id hp =>
    have hnone : (w.phase p).held = none := by rw [hp]; rfl
    unfold cancelPhase
    split
    · exact h.goto_plain rfl hnone trivial
    · split
      · exact h.goto_plain rfl hnone trivial
      · split
        · exact h.goto_plain rfl hnone trivial
        · exact h.goto_plain rfl hnone trivial
  | cancel p id cancelled users hp hc =>
    have hnone : (w.phase p).held = none := by rw [hp]; rfl
    have h' : OrphanInv { w with users } := by
      obtain ⟨locked, hf, ⟨-, -, rfl⟩ | ⟨-, -, -, rfl⟩⟩ := cancelInvitation_cases hc
      · exact h
      · exact h.restatus w.now hf rfl rfl rfl rfl (.inr (.inl rfl))
    split
    · exact h'.goto_plain rfl hnone trivial
    · exact h'.goto_plain rfl hnone trivial
  | answer p a identity hp =>
    obtain ⟨hnew, hm⟩ := ha
    rw [hm]
    simp only [ProviderUser.matchesAttempt, Bool.and_eq_true, decide_eq_true_eq] at hm
    exact h.answer hp hnew hm.1 hsep
  | providerFails p a hp =>
    refine h.carryOn (by rw [hp]; rfl) rfl (by rw [hp]; rfl) trivial fun u _ _ hrow => ?_
    rw [hp] at hrow
    exact hrow
  | commit p a x users hp hc => exact h.commit hp hc
  | commitLost p a x users hp hc => exact h.commitLost hp hc
  | commitFails p a x hp => exact h.toMarking hp
  | markFailure p a code hp => exact h.markFailure hp
  | markLocal p a x hp => exact h.markLocal hp
  | attach p a x hp => exact h.attach hp
  | readPending p id hp => exact h.readPending (by rw [hp]; rfl)
  | lookUp p pending x identity hp hi =>
    have hnone : (w.phase p).held = none := by rw [hp]; rfl
    have hread := (h.calls p).read
    rw [hp] at hread
    split
    · exact h.goto_plain rfl hnone hread
    · exact h.goto_plain rfl hnone ⟨x, hread.1, nofun⟩
  | lookUpNothing p pending x hp hi =>
    have hread := (h.calls p).read
    rw [hp] at hread
    refine h.goto_plain rfl (by rw [hp]; rfl) ⟨x, hread.1, fun _ => ?_⟩
    -- the provider knows the identity, so it is gone because it was deleted
    by_contra hd
    obtain ⟨identity, hmem, hid⟩ := mem_map.mp hread.2
    rw [InvitationWorld.identity, if_neg hd, find?_eq_none] at hi
    exact hi identity hmem (by simpa using hid)
  | remove p pending x hp =>
    have hread := (h.calls p).read
    rw [hp] at hread
    have h' : OrphanInv { w with deleted := x :: w.deleted } :=
      h.of_deleted rfl rfl rfl fun _ hx => mem_cons_of_mem _ hx
    exact h'.goto_plain rfl (by rw [hp]; rfl) ⟨x, hread.1, fun _ => mem_cons_self⟩
  | removeTwice p pending x hp hd =>
    have hread := (h.calls p).read
    rw [hp] at hread
    exact h.goto_plain rfl (by rw [hp]; rfl) ⟨x, hread.1, nofun⟩
  | finish p pending succeeded hp => exact h.finish hp
  | searchAccept p session hp | searchMark p authUserId hp =>
    unfold candidatePhase
    split
    · exact h.goto_plain rfl (by rw [hp]; rfl) trivial
    · exact h.goto_plain rfl (by rw [hp]; rfl) trivial
  | accept p session candidateId users usable acknowledged hp hc =>
    obtain ⟨u, hf, hst, rfl⟩ := acceptInvitation_cases hc
    have hleaves := And.intro (hst ▸ nofun : u.inviteStatus ≠ .PENDING_PROVIDER)
      (hst ▸ nofun : u.inviteStatus ≠ .CANCELLED)
    let u' : AppUser := { u with inviteStatus := .VERIFIED_PENDING_PASSWORD, invitationErrorCode := none }
    have h' : OrphanInv { w with users := putUser w.now u' w.users } :=
      h.restatus w.now hf rfl rfl rfl rfl (.inr (.inr ⟨hleaves.1, hleaves.2, nofun⟩))
    split
    · exact h'.goto_plain rfl (by rw [hp]; rfl) trivial
    · exact h'.goto_plain rfl (by rw [hp]; rfl) trivial
  | acceptFails p session candidateId hp => exact h.goto_plain rfl (by rw [hp]; rfl) trivial
  | markAccept p candidateId authUserId hp =>
    have hnone : (w.phase p).held = none := by rw [hp]; rfl
    have h' : OrphanInv { w with users := markAcceptCommitFailure candidateId authUserId w.now w.users } := by
      rcases markAcceptCommitFailure_cases candidateId authUserId w.now w.users with
        he | ⟨u, hf, hst, he⟩
      · rw [he]
        exact h
      · rw [he]
        have hleaves := And.intro (hst ▸ nofun : u.inviteStatus ≠ .PENDING_PROVIDER)
          (hst ▸ nofun : u.inviteStatus ≠ .CANCELLED)
        exact h.restatus w.now hf rfl rfl rfl rfl (.inr (.inr ⟨hleaves.1, hleaves.2, nofun⟩))
    exact h'.goto_plain rfl hnone trivial
  | complete p principalId providerUserId usable users hp hc =>
    obtain ⟨u, hf, hst, rfl⟩ := completeInitialPassword_cases hc
    have hleaves := And.intro (hst ▸ nofun : u.inviteStatus ≠ .PENDING_PROVIDER)
      (hst ▸ nofun : u.inviteStatus ≠ .CANCELLED)
    let u' : AppUser := { u with inviteStatus := .ACTIVE, invitationErrorCode := none }
    have h' : OrphanInv { w with users := putUser w.now u' w.users } :=
      h.restatus w.now hf rfl rfl rfl rfl (.inr (.inr ⟨hleaves.1, hleaves.2, nofun⟩))
    exact h'.goto_plain rfl (by rw [hp]; rfl) trivial
  | update p id actorId body users hp hc =>
    have hnone : (w.phase p).held = none := by rw [hp]; rfl
    have h' : OrphanInv { w with users } := by
      obtain ⟨u, hf, rfl⟩ := updateProfile_cases hc
      exact h.restatus w.now hf rfl rfl rfl rfl (.inl rfl)
    exact h'.goto_plain rfl hnone trivial
  | crash p | answerLost p a identity hp | markLocalFails p a x hp | lookUpFails p pending x hp
  | removeFails p pending x hp | removeLost p pending x hp | removedElsewhere x => exact ha.elim

end Steps

/-! ## 6. Runs -/

section Runs

variable [DecidableEq π]

/-- Any number of steps, each with a condition on the world before it and on what it stands for. -/
inductive InvitationRun (P : InvitationWorld π → InvitationEvent → Prop) (w₀ : InvitationWorld π) :
    InvitationWorld π → Prop
  | refl : InvitationRun P w₀ w₀
  | step {w w' : InvitationWorld π} {actor : Option π} {event : InvitationEvent} :
      InvitationRun P w₀ w → InvitationStep w actor event w' → P w event → InvitationRun P w₀ w'

theorem InvitationRun.orphanInv {w₀ : InvitationWorld π} (h₀ : Rested w₀)
    (hr : InvitationRun (fun w event => Assumed w event ∧ Separate w event) w₀ w) : OrphanInv w := by
  induction hr with
  | refl => exact h₀.orphanInv
  | step _ hs hc ih => exact ih.step hs hc.1 hc.2

/-- **No identity is orphaned** in a run that keeps the attempts at a row apart. -/
theorem identities_placed {w₀ w : InvitationWorld π} (h₀ : Rested w₀)
    (hr : InvitationRun (fun w event => Assumed w event ∧ Separate w event) w₀ w) (hq : NoneInFlight w) :
    ∀ identity ∈ w.created, identity.id ∈ w.deleted ∨
      ∃ u ∈ w.users, u.authUserId = some identity.id ∧ u.normalizedEmail = identity.normalizedEmail :=
  (hr.orphanInv h₀).settled hq

end Runs

def emptyWorld : InvitationWorld π := ⟨0, [], fun _ => .idle, [], []⟩

theorem emptyWorld_rested : Rested (emptyWorld : InvitationWorld π) where
  idle _ := rfl
  unique := ⟨nodup_nil, fun _ hu => absurd hu not_mem_nil⟩
  subjects _ hu := absurd hu not_mem_nil
  pending _ hu := absurd hu not_mem_nil
  settled _ hi := absurd hi not_mem_nil

/-- A row of the address in the runs below. -/
def kim (status : InviteStatus) (requestId : String) (code : Option InvitationErrorCode)
    (authUserId : Option String) (isActive : Bool) (updatedAt : Nat) : AppUser where
  id := "u1"
  normalizedEmail := some "kim@shop.kr"
  name := "Kim"
  role := .USER
  isActive := isActive
  inviteStatus := status
  authUserId := authUserId
  invitationRequestId := some requestId
  invitationErrorCode := code
  updatedAt := updatedAt

def kimAttempt (requestId : String) : Attempt := ⟨"u1", "kim@shop.kr", requestId, .request⟩

def kimIdentity : ProviderUser := ⟨"s1", some "kim@shop.kr", some "r1"⟩

/-- One invitation, answered and committed. -/
theorem identities_placed_invited :
    ∃ w : InvitationWorld Unit, NoneInFlight w ∧
      InvitationRun (fun w event => Assumed w event ∧ Separate w event) emptyWorld w ∧
      w.created = [kimIdentity] ∧
      (kimIdentity.id ∈ w.deleted ∨ ∃ u ∈ w.users, u.authUserId = some kimIdentity.id ∧
        u.normalizedEmail = kimIdentity.normalizedEmail) := by
  let invitation : Invitation := ⟨"kim@shop.kr", "Kim", .USER, "r1"⟩
  let before := kim .PENDING_PROVIDER "r1" (some .INVITATION_REQUEST_IN_PROGRESS) none true 0
  let after := kim .INVITED "r1" none (some "s1") true 0
  have h0 : InvitationRun (fun w event => Assumed w event ∧ Separate w event)
      (emptyWorld (π := Unit)) emptyWorld := .refl
  have h1 := h0.step (.call () (.inviting invitation) rfl rfl) ⟨trivial, trivial⟩
  have h2 := h1.step (.searchRequest () invitation rfl) ⟨trivial, trivial⟩
  have h3 := h2.step (.searchOwner () invitation rfl) ⟨trivial, trivial⟩
  have h4 := h3.step (.create () invitation "u1" [before] rfl rfl) ⟨trivial, trivial⟩
  have h5 := h4.step (.answer () (kimAttempt "r1") kimIdentity rfl) ⟨⟨nofun, rfl⟩, before, rfl, rfl⟩
  have h6 := h5.step (.commit () (kimAttempt "r1") "s1" [after] rfl rfl) ⟨trivial, trivial⟩
  refine ⟨_, fun _ => .inr rfl, h6, rfl, ?_⟩
  exact identities_placed emptyWorld_rested h6 (fun _ => .inr rfl) kimIdentity mem_cons_self

/-- **A slow answer**: the first invitation is cancelled once its claim is old, the row is restarted
    under a second request, and then the identity of the first arrives. -/
theorem slow_answer_orphaned :
    ¬ ∀ w₀ w : InvitationWorld (Fin 3), Rested w₀ → InvitationRun Assumed w₀ w → NoneInFlight w →
      ∀ identity ∈ w.created, identity.id ∈ w.deleted ∨
        ∃ u ∈ w.users, u.authUserId = some identity.id ∧
          u.normalizedEmail = identity.normalizedEmail := by
  intro hall
  let first : Invitation := ⟨"kim@shop.kr", "Kim", .USER, "r1"⟩
  let second : Invitation := ⟨"kim@shop.kr", "Kim", .USER, "r2"⟩
  let invited := kim .PENDING_PROVIDER "r1" (some .INVITATION_REQUEST_IN_PROGRESS) none true 0
  let cancelled := kim .CANCELLED "r1" none none false
  let again := kim .PENDING_PROVIDER "r2" (some .INVITATION_REQUEST_IN_PROGRESS) none true
  have hcancel : ∀ now, isFreshInvitationClaim 0 now = false →
      cancelInvitation "u1" now [invited] = .ok (cancelled now, [cancelled now]) := by
    intro now hold
    simp [cancelInvitation, invited, cancelled, kim, findById, putUser, hold,
      isCancellableInvitationStatus, canTransitionInvitation, transitions]
  have hold : isFreshInvitationClaim 0 (0 + 120000) = false := by decide
  have h0 : InvitationRun Assumed (emptyWorld (π := Fin 3)) emptyWorld := .refl
  have h1 := h0.step (.call 0 (.inviting first) rfl rfl) trivial
  have h2 := h1.step (.searchRequest 0 first rfl) trivial
  have h3 := h2.step (.searchOwner 0 first rfl) trivial
  have h4 := h3.step (.create 0 first "u1" [invited] rfl rfl) trivial
  -- two minutes later the claim is old enough to be cancelled
  have h5 := h4.step (.tick 120000) trivial
  have h6 := h5.step (.call 1 (.reconcilingCancel "u1") rfl rfl) trivial
  have h7 := h6.step (.searchCancel 1 "u1" rfl) trivial
  have h8 := h7.step (.cancel 1 "u1" (cancelled _) [cancelled _] rfl (hcancel _ hold)) trivial
  have h9 := h8.step (.call 2 (.inviting second) rfl rfl) trivial
  have h10 := h9.step (.searchRequest 2 second rfl) trivial
  have h11 := h10.step (.searchOwner 2 second rfl) trivial
  have h12 := h11.step (.restart 2 second "u1" [again _] rfl rfl) trivial
  -- now the answer to the first request arrives, and no handler knows the row any more
  have h13 := h12.step (.answer 0 (kimAttempt "r1") kimIdentity rfl) ⟨not_mem_nil, rfl⟩
  have h14 := h13.step (.commitFails 0 (kimAttempt "r1") "s1" rfl) trivial
  have h15 := h14.step (.markLocal 0 (kimAttempt "r1") "s1" rfl) trivial
  have h16 := h15.step (.attach 0 (kimAttempt "r1") "s1" rfl) trivial
  have h17 := h16.step (.providerFails 2 (kimAttempt "r2") rfl) trivial
  have h18 := h17.step (.markFailure 2 (kimAttempt "r2") .INVITATION_PROVIDER_UNAVAILABLE rfl) trivial
  have hplaced := hall _ _ emptyWorld_rested h18
    (Fin.cases (.inr rfl) (Fin.cases (.inr rfl) (Fin.cases (.inr rfl) (·.elim0))))
  rcases hplaced kimIdentity mem_cons_self with hd | ⟨u, hu, hs, -⟩
  · cases hd
  · cases mem_singleton.mp hu
    cases hs

end AdsManagement.Users
