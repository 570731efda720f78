/-
  File:      Auth/RotationSafety.lean
  Subject:   THE ROTATION OF SESSION TOKENS IS SAFE over every interleaving of calls and every
             replay of tokens.

  Two of the statements write the hash of a token: the insert of a session and the update of
  `refresh`, which takes the presented token from current to previous. All others only move the
  expiry of a row or revoke it (`QuietRows`). So what the hash of a row belongs to can be read off
  the tokens issued and the rotations made.

  * `RotationInv` -- current and previous tokens of every row, and the refused refreshes;
  * `RotationInv.quiet`, `RotationInv.issue`, `RotationInv.rotate`;
  * `rotation_safe` -- every reachable world, and every step out of it.
-/
import Mathlib.Data.List.Nodup
import AdsManagement.Auth.SessionRotation
import AdsManagement.Lib.Runs

namespace AdsManagement.Auth

open Lib List Function

variable {π : Type} {config : LocalSessionConfig} {crypto : TokenCrypto}

/-! ## 1. Rows that keep their tokens -/

/-- A row is written, but not its tokens; it is not revived, and its expiry stays in its bound. -/
structure QuietUpdate (f : LocalSession → LocalSession) : Prop where
  id : ∀ row, (f row).id = row.id
  hash : ∀ row, (f row).localTokenHash = row.localTokenHash
  previous : ∀ row, (f row).previousLocalTokenHash = row.previousLocalTokenHash
  validUntil : ∀ row, (f row).previousTokenValidUntil = row.previousTokenValidUntil
  absolute : ∀ row, (f row).absoluteExpiresAt = row.absoluteExpiresAt
  idle : ∀ row, row.idleExpiresAt ≤ row.absoluteExpiresAt → (f row).idleExpiresAt ≤ row.absoluteExpiresAt
  revoked : ∀ row, row.revoked = true → (f row).revoked = true

def QuietRows (rows rows' : List LocalSession) : Prop :=
  ∃ f, QuietUpdate f ∧ rows' = rows.map f

theorem QuietRows.refl (rows : List LocalSession) : QuietRows rows rows :=
  ⟨fun row => row, ⟨fun _ => rfl, fun _ => rfl, fun _ => rfl, fun _ => rfl, fun _ => rfl, fun _ h => h,
    fun _ h => h⟩, (map_id rows).symm⟩

theorem quietUpdate_touchRow (hash : String) (purpose : AuthPurpose) (clock clock' : Nat) :
    QuietUpdate (touchRow config hash purpose clock clock') := by
  constructor <;> intro row <;> unfold touchRow <;> split
  case idle.isTrue => exact fun _ => Nat.min_le_left ..
  all_goals simp

theorem quietUpdate_revokeRow (sessionId : String) : QuietUpdate (revokeRow sessionId) := by
  constructor <;> intro row <;> unfold revokeRow <;> split <;> simp

theorem quietUpdate_revokeHashRow (hash : String) (clock : Nat) :
    QuietUpdate (revokeHashRow hash clock) := by
  constructor <;> intro row <;> unfold revokeHashRow <;> split <;> simp

theorem quietRows_revokeFamily (token : String) (rows : List LocalSession) :
    QuietRows rows (revokeFamily crypto token rows) := by
  unfold revokeFamily
  split
  · exact ⟨_, quietUpdate_revokeRow _, rfl⟩
  · exact .refl rows

theorem quietRows_logoutSessions (token : String) (clock : Nat) (rows : List LocalSession) :
    QuietRows rows (logoutSessions crypto token clock rows) := by
  unfold logoutSessions
  split
  · exact ⟨_, quietUpdate_revokeRow _, rfl⟩
  · exact ⟨_, quietUpdate_revokeHashRow _ _, rfl⟩

variable {row : LocalSession} {sessionId oldHash : String} {clock' : Nat}
variable {nextHash : String}

/-- A rotation keeps a row where it does not match, and never revives one. -/
theorem rotateRow_eq_self {clock : Nat} (h : row.rotates sessionId oldHash clock = false) :
    rotateRow sessionId oldHash nextHash clock clock' row = row := by
  unfold rotateRow
  rw [h]
  rfl

@[simp] theorem rotateRow_id (sessionId oldHash nextHash : String) (clock clock' : Nat)
    (row : LocalSession) : (rotateRow sessionId oldHash nextHash clock clock' row).id = row.id := by
  unfold rotateRow
  split <;> rfl

@[simp] theorem rotateRow_absolute (sessionId oldHash nextHash : String) (clock clock' : Nat)
    (row : LocalSession) :
    (rotateRow sessionId oldHash nextHash clock clock' row).absoluteExpiresAt = row.absoluteExpiresAt := by
  unfold rotateRow
  split <;> rfl

@[simp] theorem rotateRow_idle (sessionId oldHash nextHash : String) (clock clock' : Nat)
    (row : LocalSession) :
    (rotateRow sessionId oldHash nextHash clock clock' row).idleExpiresAt = row.idleExpiresAt := by
  unfold rotateRow
  split <;> rfl

@[simp] theorem rotateRow_revoked (sessionId oldHash nextHash : String) (clock clock' : Nat)
    (row : LocalSession) :
    (rotateRow sessionId oldHash nextHash clock clock' row).revoked = row.revoked := by
  unfold rotateRow
  split <;> rfl

/-! ## 2. The invariant -/

structure RotationInv (crypto : TokenCrypto) (w : SessionWorld π) : Prop where
  ids : (w.sessions.map LocalSession.id).Nodup
  wellFormed : ∀ token ∈ w.issued, token.WellFormed
  hasRow : ∀ token ∈ w.issued, ∃ row ∈ w.sessions, row.id = token.sessionId
  /-- The current token of a row was issued for it and was not rotated out. -/
  current : ∀ row ∈ w.sessions, ∃ token ∈ w.issued, token.sessionId = row.id ∧
    tokenHash crypto (token.text crypto) = row.localTokenHash ∧
    ∀ r ∈ w.rotations, r.token ≠ token.text crypto
  /-- The previous token of a row was rotated out, and its grace runs from then. -/
  previous : ∀ row ∈ w.sessions, ∀ hash, row.previousLocalTokenHash = some hash →
    ∃ r ∈ w.rotations, tokenHash crypto r.token = hash ∧
      row.previousTokenValidUntil = some (r.time + rotationGraceMs)
  /-- A token that was rotated out was issued for the session of its successor. -/
  rotated : ∀ r ∈ w.rotations, ∃ token ∈ w.issued, r.token = token.text crypto ∧
    token.sessionId = r.next.sessionId
  once : ∀ r ∈ w.rotations, ∀ r' ∈ w.rotations, r.token = r'.token → r = r'
  idle : ∀ row ∈ w.sessions, row.idleExpiresAt ≤ row.absoluteExpiresAt
  /-- A refresh that was refused has revoked the session of its token. -/
  refused : ∀ p, ∀ token ∈ w.issued, w.phase p = .refreshRefused (token.text crypto) →
    ∀ row ∈ w.sessions, row.id = token.sessionId → row.revoked = true

variable {w w' : SessionWorld π}

theorem RotationInv.start (h : SessionStart w) : RotationInv crypto w := by
  constructor <;> simp [h.sessions, h.issued, h.rotations]

/-- **A statement that keeps the tokens of all rows.** -/
theorem RotationInv.quiet (h : RotationInv crypto w) (hrows : QuietRows w.sessions w'.sessions)
    (hissued : w'.issued = w.issued) (hrotations : w'.rotations = w.rotations)
    (hphase : ∀ p, ∀ token ∈ w.issued, w'.phase p = .refreshRefused (token.text crypto) →
      w.phase p = .refreshRefused (token.text crypto) ∨
        ∀ row ∈ w'.sessions, row.id = token.sessionId → row.revoked = true) :
    RotationInv crypto w' := by
  obtain ⟨f, hf, he⟩ := hrows
  have hmem : ∀ row' ∈ w'.sessions, ∃ row ∈ w.sessions, row' = f row := by
    intro row' hrow'
    rw [he] at hrow'
    obtain ⟨row, hrow, rfl⟩ := mem_map.mp hrow'
    exact ⟨row, hrow, rfl⟩
  constructor
  · have : w'.sessions.map LocalSession.id = w.sessions.map LocalSession.id := by
      rw [he, map_map]
      exact map_congr_left fun row _ => hf.id row
    rw [this]
    exact h.ids
  · rw [hissued]
    exact h.wellFormed
  · rw [hissued]
    intro token ht
    obtain ⟨row, hrow, hid⟩ := h.hasRow token ht
    exact ⟨f row, by rw [he]; exact mem_map_of_mem hrow, (hf.id row).trans hid⟩
  · rw [hissued, hrotations]
    intro row' hrow'
    obtain ⟨row, hrow, rfl⟩ := hmem row' hrow'
    rw [hf.id, hf.hash]
    exact h.current row hrow
  · rw [hrotations]
    intro row' hrow' hash hh
    obtain ⟨row, hrow, rfl⟩ := hmem row' hrow'
    rw [hf.previous] at hh
    rw [hf.validUntil]
    exact h.previous row hrow hash hh
  · rw [hissued, hrotations]
    exact h.rotated
  · rw [hrotations]
    exact h.once
  · intro row' hrow'
    obtain ⟨row, hrow, rfl⟩ := hmem row' hrow'
    rw [hf.absolute]
    exact hf.idle row (h.idle row hrow)
  · rw [hissued]
    intro p token ht hp row' hrow' hid
    rcases hphase p token ht hp with hold | hnew
    · obtain ⟨row, hrow, rfl⟩ := hmem row' hrow'
      rw [hf.id] at hid
      exact hf.revoked row (h.refused p token ht hold row hrow hid)
    · exact hnew row' hrow' hid

/-- **A new session.** -/
theorem RotationInv.issue (h : RotationInv crypto w) (hsound : crypto.Sound) {token : SessionToken}
    (hnew : NewToken crypto w token) (hid : ∀ row ∈ w.sessions, row.id ≠ token.sessionId)
    (onboardingOnly : Bool) {clock : Nat} (hc : clock ≤ clock') :
    RotationInv crypto
      { w with
        now := clock'
        sessions := issueSession config crypto token onboardingOnly clock clock' :: w.sessions
        issued := token :: w.issued } := by
  have hold : ∀ t ∈ w.issued, t.text crypto ≠ token.text crypto := by
    intro t ht he
    have := SessionToken.text_inj hsound (h.wellFormed t ht) hnew.wellFormed he
    exact hnew.notIssued (this ▸ ht)
  constructor
  · refine nodup_cons.mpr ⟨fun hmem => ?_, h.ids⟩
    obtain ⟨row, hrow, he⟩ := mem_map.mp hmem
    exact hid row hrow he
  · intro t ht
    rcases mem_cons.mp ht with rfl | ht
    · exact hnew.wellFormed
    · exact h.wellFormed t ht
  · intro t ht
    rcases mem_cons.mp ht with rfl | ht
    · exact ⟨_, mem_cons_self, rfl⟩
    · obtain ⟨row, hrow, he⟩ := h.hasRow t ht
      exact ⟨row, mem_cons_of_mem _ hrow, he⟩
  · intro row hrow
    rcases mem_cons.mp hrow with rfl | hrow
    · refine ⟨token, mem_cons_self, rfl, rfl, fun r hr he => ?_⟩
      obtain ⟨t, ht, hrt, -⟩ := h.rotated r hr
      exact hold t ht (hrt.symm.trans he)
    · obtain ⟨t, ht, hrest⟩ := h.current row hrow
      exact ⟨t, mem_cons_of_mem _ ht, hrest⟩
  · intro row hrow hash hh
    rcases mem_cons.mp hrow with rfl | hrow
    · cases hh
    · exact h.previous row hrow hash hh
  · intro r hr
    obtain ⟨t, ht, hrest⟩ := h.rotated r hr
    exact ⟨t, mem_cons_of_mem _ ht, hrest⟩
  · exact h.once
  · intro row hrow
    rcases mem_cons.mp hrow with rfl | hrow
    · exact Nat.add_le_add hc config.idle_le_absolute
    · exact h.idle row hrow
  · intro p t ht hp row hrow hrid
    rcases mem_cons.mp ht with rfl | ht
    · -- nobody has presented the new token
      exact absurd (congrArg SessionPhase.token hp) (hnew.notPresented p)
    · rcases mem_cons.mp hrow with rfl | hrow
      · obtain ⟨row, hrow, he⟩ := h.hasRow t ht
        exact absurd (he.trans hrid.symm) (hid row hrow)
      · exact h.refused p t ht hp row hrow hrid

variable {token : String}

/-- A token that a row has as its current one was issued for that row, and was not rotated out. -/
theorem RotationInv.token_of_current (h : RotationInv crypto w) (hsound : crypto.Sound)
    (hrow : row ∈ w.sessions) (ht : row.localTokenHash = tokenHash crypto token) :
    ∃ t ∈ w.issued, token = t.text crypto ∧ t.sessionId = row.id ∧ ∀ r ∈ w.rotations, r.token ≠ token := by
  obtain ⟨t, hti, hid, hhash, hnone⟩ := h.current row hrow
  have he : token = t.text crypto :=
    tokenHash_text_inj hsound (h.wellFormed t hti) (ht.symm.trans hhash.symm)
  exact ⟨t, hti, he, hid, he ▸ hnone⟩

theorem rotates_eq_true {clock : Nat} (h : row.rotates sessionId oldHash clock = true) :
    row.id = sessionId ∧ row.localTokenHash = oldHash ∧ row.revoked = false ∧
      clock < row.absoluteExpiresAt := by
  simp only [LocalSession.rotates, Bool.and_eq_true, decide_eq_true_eq, Bool.not_eq_true'] at h
  exact ⟨h.1.1.1, h.1.1.2, h.1.2, h.2⟩

/-- What a rotation makes of a row: the one it matches gets the new token, the others stay. -/
theorem rotateRow_cases {clock : Nat} (row : LocalSession) :
    row.rotates sessionId oldHash clock = true ∧
      (rotateRow sessionId oldHash nextHash clock clock' row).localTokenHash = nextHash ∧
      (rotateRow sessionId oldHash nextHash clock clock' row).previousLocalTokenHash = some oldHash ∧
      (rotateRow sessionId oldHash nextHash clock clock' row).previousTokenValidUntil =
        some (clock' + rotationGraceMs) ∨
    row.rotates sessionId oldHash clock = false ∧
      rotateRow sessionId oldHash nextHash clock clock' row = row := by
  cases h : row.rotates sessionId oldHash clock with
  | true =>
    left
    have hold := (rotates_eq_true h).2.1
    unfold rotateRow
    rw [h]
    exact ⟨rfl, rfl, congrArg some hold, rfl⟩
  | false => exact .inr ⟨rfl, rotateRow_eq_self h⟩

section Moves

variable [DecidableEq π]
variable {p : π}

/-- **A rotation**: the presented token is the current one of the row, and becomes the previous. -/
theorem RotationInv.rotate (h : RotationInv crypto w) (hsound : crypto.Sound) {next : SessionToken}
    {clock : Nat} {row0 : LocalSession} (hrow0 : row0 ∈ w.sessions)
    (hrot : row0.rotates sessionId (tokenHash crypto token) clock = true) (hnew : NewToken crypto w next)
    (hid : next.sessionId = sessionId) :
    RotationInv crypto
      { w.write p clock'
          (w.sessions.map (rotateRow sessionId (tokenHash crypto token)
            (tokenHash crypto (next.text crypto)) clock clock')) (.renewed token) with
        issued := next :: w.issued
        rotations := ⟨token, next, clock'⟩ :: w.rotations } := by
  obtain ⟨hid0, hhash0, -, -⟩ := rotates_eq_true hrot
  obtain ⟨t0, ht0, htok, hsid0, hfresh⟩ := h.token_of_current hsound hrow0 hhash0
  have hnext : ∀ t ∈ w.issued, t.text crypto ≠ next.text crypto := by
    intro t ht he
    have := SessionToken.text_inj hsound (h.wellFormed t ht) hnew.wellFormed he
    exact hnew.notIssued (this ▸ ht)
  have hmem : ∀ row' ∈ w.sessions.map (rotateRow sessionId (tokenHash crypto token)
      (tokenHash crypto (next.text crypto)) clock clock'), ∃ row ∈ w.sessions,
        row' = rotateRow sessionId (tokenHash crypto token) (tokenHash crypto (next.text crypto))
          clock clock' row := by
    intro row' hrow'
    obtain ⟨row, hrow, rfl⟩ := mem_map.mp hrow'
    exact ⟨row, hrow, rfl⟩
  constructor
  · show ((w.sessions.map _).map LocalSession.id).Nodup
    rw [map_map]
    have : w.sessions.map (LocalSession.id ∘ rotateRow sessionId (tokenHash crypto token)
        (tokenHash crypto (next.text crypto)) clock clock') = w.sessions.map LocalSession.id :=
      map_congr_left fun row _ => rotateRow_id _ _ _ _ _ row
    rw [this]
    exact h.ids
  · intro t ht
    rcases mem_cons.mp ht with rfl | ht
    · exact hnew.wellFormed
    · exact h.wellFormed t ht
  · intro t ht
    rcases mem_cons.mp ht with rfl | ht
    · exact ⟨_, mem_map_of_mem hrow0, by rw [rotateRow_id, hid0, hid]⟩
    · obtain ⟨row, hrow, he⟩ := h.hasRow t ht
      exact ⟨_, mem_map_of_mem hrow, by rw [rotateRow_id, he]⟩
  · intro row' hrow'
    obtain ⟨row, hrow, rfl⟩ := hmem row' hrow'
    rcases rotateRow_cases row with ⟨hr, hhash, -, -⟩ | ⟨hr, he⟩
    · refine ⟨next, mem_cons_self, ?_, hhash.symm, fun r hr' he => ?_⟩
      · rw [rotateRow_id, (rotates_eq_true hr).1, hid]
      · rcases mem_cons.mp hr' with rfl | hr'
        · exact hnext t0 ht0 (htok.symm.trans he)
        · obtain ⟨t, ht, hrt, -⟩ := h.rotated r hr'
          exact hnext t ht (hrt.symm.trans he)
    · rw [he]
      obtain ⟨t, ht, hsid, hhash, hnone⟩ := h.current row hrow
      refine ⟨t, mem_cons_of_mem _ ht, hsid, hhash, fun r hr' hrt => ?_⟩
      rcases mem_cons.mp hr' with rfl | hr'
      · -- the presented token is current in one row only, and that row rotates
        have htt : t0 = t := SessionToken.text_inj hsound (h.wellFormed t0 ht0) (h.wellFormed t ht)
          (htok.symm.trans hrt)
        have hrr : row0 = row := inj_on_of_nodup_map h.ids hrow0 hrow
          (hsid0.symm.trans (htt ▸ hsid))
        rw [← hrr, hrot] at hr
        cases hr
      · exact hnone r hr' hrt
  · intro row' hrow' hash hh
    obtain ⟨row, hrow, rfl⟩ := hmem row' hrow'
    rcases rotateRow_cases row with ⟨-, -, hprev, huntil⟩ | ⟨-, he⟩
    · refine ⟨⟨token, next, clock'⟩, mem_cons_self, ?_, huntil⟩
      exact Option.some.inj (hprev.symm.trans hh)
    · rw [he] at hh ⊢
      obtain ⟨r, hr, hrest⟩ := h.previous row hrow hash hh
      exact ⟨r, mem_cons_of_mem _ hr, hrest⟩
  · intro r hr
    rcases mem_cons.mp hr with rfl | hr
    · exact ⟨t0, mem_cons_of_mem _ ht0, htok, by rw [hsid0, hid0, hid]⟩
    · obtain ⟨t, ht, hrest⟩ := h.rotated r hr
      exact ⟨t, mem_cons_of_mem _ ht, hrest⟩
  · intro r hr r' hr' he
    rcases mem_cons.mp hr with rfl | hr <;> rcases mem_cons.mp hr' with rfl | hr'
    · rfl
    · exact absurd he.symm (hfresh r' hr')
    · exact absurd he (hfresh r hr)
    · exact h.once r hr r' hr' he
  · intro row' hrow'
    obtain ⟨row, hrow, rfl⟩ := hmem row' hrow'
    rw [rotateRow_idle, rotateRow_absolute]
    exact h.idle row hrow
  · intro q t ht hq row' hrow' hrid
    obtain ⟨row, hrow, rfl⟩ := hmem row' hrow'
    rw [rotateRow_revoked]
    rw [rotateRow_id] at hrid
    rcases update_eq_cases hq with ⟨-, hq'⟩ | ⟨-, hq'⟩
    · cases hq'
    · rcases mem_cons.mp ht with rfl | ht
      · exact absurd (congrArg SessionPhase.token hq') (hnew.notPresented q)
      · exact h.refused q t ht hq' row hrow hrid

variable {phase : SessionPhase}

/-- A call moves and is not refused a refresh. -/
theorem RotationInv.move (h : RotationInv crypto w) (hphase : w'.phase = update w.phase p phase)
    (hp : ∀ token, phase ≠ .refreshRefused token) (hrows : QuietRows w.sessions w'.sessions)
    (hissued : w'.issued = w.issued) (hrotations : w'.rotations = w.rotations) :
    RotationInv crypto w' := by
  refine h.quiet hrows hissued hrotations fun q token _ hq => ?_
  rw [hphase] at hq
  rcases update_eq_cases hq with ⟨-, hq⟩ | ⟨-, hq⟩
  · exact absurd hq (hp _)
  · exact .inl hq

/-- A refresh that was not authenticated revokes the session its token names. -/
theorem RotationInv.revokeFamily (h : RotationInv crypto w) (hsound : crypto.Sound) (p : π)
    (token : String) :
    RotationInv crypto
      (w.write p w.now (Auth.revokeFamily crypto token w.sessions) (.refreshRefused token)) := by
  refine h.quiet (quietRows_revokeFamily token w.sessions) rfl rfl fun q t ht hq => ?_
  rcases update_eq_cases hq with ⟨-, hq'⟩ | ⟨-, hq'⟩
  · right
    intro row' hrow' hid
    unfold Auth.revokeFamily at hrow'
    rw [SessionPhase.refreshRefused.inj hq', validSessionFamilyId_text hsound (h.wellFormed t ht)] at hrow'
    obtain ⟨row, hrow, rfl⟩ := mem_map.mp hrow'
    rw [(quietUpdate_revokeRow t.sessionId).id] at hid
    unfold revokeRow
    rw [if_pos hid]
  · exact .inl hq'

theorem failedPhase_ne (token : String) (purpose : AuthPurpose) (t : String) :
    failedPhase token purpose ≠ .refreshRefused t := by
  cases purpose <;> simp [failedPhase]

theorem allowedPhase_ne (token sessionId : String) (onboardingOnly due : Bool) (purpose : AuthPurpose)
    (t : String) : allowedPhase token sessionId onboardingOnly due purpose ≠ .refreshRefused t := by
  cases purpose with
  | request =>
    simp only [allowedPhase]
    split <;> simp
  | browserCheck | refresh => simp [allowedPhase]

variable {event : SessionEvent}

/-- **One step** keeps the invariant. -/
theorem RotationInv.step (h : RotationInv crypto w) (hsound : crypto.Sound)
    (hs : SessionStep config crypto w event w') : RotationInv crypto w' := by
  cases hs with
  | tick ms => exact h.quiet (.refl _) rfl rfl fun _ _ _ hp => .inl hp
  | issue token onboardingOnly clock clock' hc hc' hnew hid =>
    exact h.issue hsound hnew hid onboardingOnly hc'
  | present p token purpose hp | leave p token hp
  | deny p token purpose sessionId onboardingOnly due hp
  | race p token sessionId clock hp hc hrow => exact h.move rfl (by simp) (.refl _) rfl rfl
  | touch p token purpose row clock clock' hp hc hc' hrow =>
    exact h.move rfl (by simp) ⟨_, quietUpdate_touchRow _ _ _ _, rfl⟩ rfl rfl
  | touchNothing p token purpose clock hp hc hrow =>
    exact h.move rfl (failedPhase_ne token purpose) (.refl _) rfl rfl
  | allow p token purpose sessionId onboardingOnly due hp =>
    exact h.move rfl (allowedPhase_ne _ _ _ _ _) (.refl _) rfl rfl
  | revokeOne p token purpose sessionId hp =>
    exact h.move rfl (failedPhase_ne token purpose) ⟨_, quietUpdate_revokeRow _, rfl⟩ rfl rfl
  | rotate p token sessionId next clock clock' hp hc hc' hrow hnew hid =>
    obtain ⟨row0, hrow0, hrot⟩ := hrow
    exact h.rotate hsound hrow0 hrot hnew hid
  | revokeFamily p token hp => exact h.revokeFamily hsound p token
  | logout p token clock hp hc =>
    exact h.move rfl (by simp) (quietRows_logoutSessions _ _ _) rfl rfl
  | revokeElsewhere sessionId =>
    exact h.quiet ⟨_, quietUpdate_revokeRow _, rfl⟩ rfl rfl fun _ _ _ hp => .inl hp

/-! ## 3. What a step accepts -/

/-- The moves of a call, with the row a presented token was accepted for. -/
inductive CallMove (crypto : TokenCrypto) (w : SessionWorld π) : SessionPhase → SessionPhase → Prop
  | begin (phase : SessionPhase) : CallMove crypto w .idle phase
  | touch (token : String) (purpose : AuthPurpose) (row : LocalSession) (clock : Nat)
      (phase : SessionPhase) (hc : w.now ≤ clock) (hrow : row ∈ w.sessions)
      (ha : row.accepts (tokenHash crypto token) purpose clock = true) :
      CallMove crypto w (.authenticating token purpose) phase
  | touchNothing (token : String) (purpose : AuthPurpose) :
      CallMove crypto w (.authenticating token purpose) (failedPhase token purpose)
  | decide (token : String) (purpose : AuthPurpose) (sessionId : String) (onboardingOnly due : Bool)
      (phase : SessionPhase) :
      CallMove crypto w (.touched token purpose sessionId onboardingOnly due) phase
  | revokeOne (token : String) (purpose : AuthPurpose) (sessionId : String) :
      CallMove crypto w (.revoking token purpose sessionId) (failedPhase token purpose)
  | rotate (token sessionId : String) (phase : SessionPhase) :
      CallMove crypto w (.rotating token sessionId) phase
  | revokeFamily (token : String) : CallMove crypto w (.revokingFamily token) (.refreshRefused token)
  | logout (token : String) : CallMove crypto w (.loggingOut token) (.loggedOut token)

/-- A step is a move of one call. -/
theorem callMove_update {q : π} {from' : SessionPhase} (hq : w.phase q = from')
    (hm : CallMove crypto w from' phase) :
    update w.phase q phase p = w.phase p ∨
      CallMove crypto w (w.phase p) (update w.phase q phase p) := by
  by_cases he : p = q
  · subst he
    rw [update_self, hq]
    exact .inr hm
  · exact .inl (update_of_ne he _ _)

theorem SessionStep.move (hs : SessionStep config crypto w event w') (p : π) :
    w'.phase p = w.phase p ∨ CallMove crypto w (w.phase p) (w'.phase p) := by
  cases hs with
  | tick ms | issue token onboardingOnly clock clock' hc hc' hnew hid
  | revokeElsewhere sessionId => exact .inl rfl
  | present q token purpose hq | leave q token hq => exact callMove_update hq (.begin _)
  | touch q token purpose row clock clock' hq hc hc' hrow =>
    have hacc := find?_some hrow
    exact callMove_update hq (.touch token purpose row clock _ hc (mem_of_find?_eq_some hrow) hacc)
  | touchNothing q token purpose clock hq hc hrow => exact callMove_update hq (.touchNothing _ _)
  | allow q token purpose sessionId onboardingOnly due hq
  | deny q token purpose sessionId onboardingOnly due hq =>
    exact callMove_update hq (.decide _ _ _ _ _ _)
  | revokeOne q token purpose sessionId hq => exact callMove_update hq (.revokeOne _ _ _)
  | rotate q token sessionId next clock clock' hq hc hc' hrow hnew hid
  | race q token sessionId clock hq hc hrow =>
    exact callMove_update hq (.rotate _ _ _)
  | revokeFamily q token hq => exact callMove_update hq (.revokeFamily _)
  | logout q token clock hq hc => exact callMove_update hq (.logout _)

end Moves

variable {purpose : AuthPurpose}

theorem accepts_eq_true {hash : String} {clock : Nat} (h : row.accepts hash purpose clock = true) :
    (row.localTokenHash = hash ∨ purpose.allowsPrevious = true ∧
      row.previousLocalTokenHash = some hash ∧ ∃ until', row.previousTokenValidUntil = some until' ∧
        clock < until') ∧ row.revoked = false ∧ clock < row.idleExpiresAt ∧
      clock < row.absoluteExpiresAt := by
  simp only [LocalSession.accepts, Bool.and_eq_true, Bool.or_eq_true, decide_eq_true_eq,
    Bool.not_eq_true', Option.any_eq_true] at h
  obtain ⟨⟨⟨h1, h2⟩, h3⟩, h4⟩ := h
  refine ⟨?_, h2, h3, h4⟩
  rcases h1 with h1 | ⟨⟨ha, hp⟩, hu⟩
  · exact .inl h1
  · exact .inr ⟨ha, hp, hu⟩

/-- **A token that was rotated out** is accepted only by its previous hash and in its grace. -/
theorem RotationInv.grace (h : RotationInv crypto w) (hsound : crypto.Sound) (hrow : row ∈ w.sessions)
    {r : Rotation} (hr : r ∈ w.rotations) {clock : Nat}
    (hacc : row.accepts (tokenHash crypto r.token) purpose clock = true) :
    purpose.allowsPrevious = true ∧ clock < r.time + rotationGraceMs := by
  rcases (accepts_eq_true hacc).1 with hcur | ⟨ha, hprev, until', huntil, hlt⟩
  · obtain ⟨t, -, -, -, hnone⟩ := h.token_of_current hsound hrow hcur
    exact absurd rfl (hnone r hr)
  · obtain ⟨r', hr', hhash, huntil'⟩ := h.previous row hrow _ hprev
    -- the previous hash belongs to this very rotation
    obtain ⟨t, ht, hrt, -⟩ := h.rotated r hr
    have hsame : r'.token = r.token := by
      rw [hrt] at hhash ⊢
      exact tokenHash_text_inj hsound (h.wellFormed t ht) hhash
    rw [h.once r' hr' r hr hsame, huntil] at huntil'
    exact ⟨ha, Option.some.inj huntil' ▸ hlt⟩

/-! ## 4. Runs -/

/-- What holds of the table and of the calls at any moment. -/
structure RotationSafe (crypto : TokenCrypto) (w : SessionWorld π) : Prop where
  /-- Each session has exactly one current token. -/
  oneCurrent : ∀ row ∈ w.sessions, ∃! token, token ∈ w.issued ∧
    tokenHash crypto (token.text crypto) = row.localTokenHash
  /-- A token has at most one successor. -/
  oneSuccessor : ∀ r ∈ w.rotations, ∀ r' ∈ w.rotations, r.token = r'.token → r = r'
  idleBound : ∀ row ∈ w.sessions, row.idleExpiresAt ≤ row.absoluteExpiresAt
  /-- A refresh that was refused has revoked the session of a token that was rotated out. -/
  refusedRevokes : ∀ p, ∀ r ∈ w.rotations, w.phase p = .refreshRefused r.token →
    ∀ row ∈ w.sessions, row.id = r.next.sessionId → row.revoked = true

/-- What holds of every step. -/
structure RotationStepSafe (crypto : TokenCrypto) (w : SessionWorld π) (event : SessionEvent)
    (w' : SessionWorld π) : Prop where
  /-- What is accepted: a session that is neither revoked nor expired, and for a request its current
      token, which was never rotated out. -/
  accepted : ∀ purpose token sessionId, event = .accepted purpose token sessionId →
    ∃ row ∈ w.sessions, row.id = sessionId ∧ (∀ row' ∈ w.sessions, row'.id = sessionId → row' = row) ∧
      row.revoked = false ∧ w.now < row.absoluteExpiresAt ∧
      (purpose = .request → row.localTokenHash = tokenHash crypto token ∧
        ∀ r ∈ w.rotations, r.token ≠ token)
  /-- New tokens come from a new session, or from a refresh with the current token. -/
  newToken : ∀ token ∈ w'.issued, token ∉ w.issued →
    event = .issued token ∨ ∃ r, event = .rotated r ∧ r.next = token
  rotated : ∀ r, event = .rotated r →
    (∃ row ∈ w.sessions, row.id = r.next.sessionId ∧ row.localTokenHash = tokenHash crypto r.token) ∧
    (∀ r' ∈ w.rotations, r'.token ≠ r.token) ∧ r ∈ w'.rotations
  /-- Revoked stays revoked, and the absolute expiry stays what it was. -/
  stays : ∀ row ∈ w.sessions, ∃ row' ∈ w'.sessions, row'.id = row.id ∧
    row'.absoluteExpiresAt = row.absoluteExpiresAt ∧ (row.revoked = true → row'.revoked = true)
  clock : w.now ≤ w'.now
  /-- A refresh with a token whose grace is over goes to the revocation of its session. -/
  lateReuse : ∀ p, ∀ r ∈ w.rotations, w.phase p = .authenticating r.token .refresh →
    r.time + rotationGraceMs ≤ w.now → w'.phase p = w.phase p ∨ w'.phase p = .revokingFamily r.token
  revocation : ∀ p token, w.phase p = .revokingFamily token →
    w'.phase p = w.phase p ∨ w'.phase p = .refreshRefused token

theorem RotationInv.safe (h : RotationInv crypto w) (hsound : crypto.Sound) : RotationSafe crypto w where
  oneCurrent row hrow := by
    obtain ⟨token, ht, -, hhash, -⟩ := h.current row hrow
    refine ⟨token, ⟨ht, hhash⟩, fun t ⟨hti, hth⟩ => ?_⟩
    refine SessionToken.text_inj hsound (h.wellFormed t hti) (h.wellFormed token ht) ?_
    exact tokenHash_text_inj hsound (h.wellFormed token ht) (hth.trans hhash.symm)
  oneSuccessor := h.once
  idleBound := h.idle
  refusedRevokes p r hr hp row hrow hid := by
    obtain ⟨t, ht, hrt, hsid⟩ := h.rotated r hr
    rw [hrt] at hp
    exact h.refused p t ht hp row hrow (hid.trans hsid.symm)

theorem QuietRows.stays {rows rows' : List LocalSession} (h : QuietRows rows rows') :
    ∀ row ∈ rows, ∃ row' ∈ rows', row'.id = row.id ∧
      row'.absoluteExpiresAt = row.absoluteExpiresAt ∧ (row.revoked = true → row'.revoked = true) := by
  obtain ⟨f, hf, rfl⟩ := h
  exact fun row hrow => ⟨f row, mem_map_of_mem hrow, hf.id row, hf.absolute row, hf.revoked row⟩

/-- A row is in the table after any step, with its absolute expiry and not revived. -/
theorem SessionStep.stays [DecidableEq π] {event : SessionEvent}
    (hs : SessionStep config crypto w event w') :
    ∀ row ∈ w.sessions, ∃ row' ∈ w'.sessions, row'.id = row.id ∧
      row'.absoluteExpiresAt = row.absoluteExpiresAt ∧ (row.revoked = true → row'.revoked = true) := by
  cases hs with
  | issue token onboardingOnly clock clock' hc hc' hnew hid =>
    exact fun row hrow => ⟨row, mem_cons_of_mem _ hrow, rfl, rfl, fun h => h⟩
  | touch p token purpose row clock clock' hp hc hc' hrow =>
    exact QuietRows.stays ⟨_, quietUpdate_touchRow _ _ _ _, rfl⟩
  | revokeOne p token purpose sessionId hp | revokeElsewhere sessionId =>
    exact QuietRows.stays ⟨_, quietUpdate_revokeRow _, rfl⟩
  | rotate p token sessionId next clock clock' hp hc hc' hrow hnew hid =>
    intro row hrow
    refine ⟨_, mem_map_of_mem hrow, ?_⟩
    simp
  | revokeFamily p token hp => exact (quietRows_revokeFamily token w.sessions).stays
  | logout p token clock hp hc => exact (quietRows_logoutSessions token clock w.sessions).stays
  | _ => exact (QuietRows.refl w.sessions).stays

theorem SessionStep.clock [DecidableEq π] {event : SessionEvent}
    (hs : SessionStep config crypto w event w') : w.now ≤ w'.now := by
  cases hs with
  | tick ms => exact Nat.le_add_right _ _
  | issue token onboardingOnly clock clock' hc hc' hnew hid
  | touch p token purpose row clock clock' hp hc hc' hrow
  | rotate p token sessionId next clock clock' hp hc hc' hrow hnew hid => exact Nat.le_trans hc hc'
  | touchNothing p token purpose clock hp hc hrow | race p token sessionId clock hp hc hrow
  | logout p token clock hp hc => exact hc
  | _ => exact Nat.le_refl _

theorem RotationInv.stepSafe [DecidableEq π] (h : RotationInv crypto w) (hsound : crypto.Sound)
    {event : SessionEvent} (hs : SessionStep config crypto w event w') :
    RotationStepSafe crypto w event w' where
  accepted purpose token sessionId he := by
    subst he
    cases hs with
    | touch p _ _ row clock clock' hp hc hc' hrow =>
      have hmem := mem_of_find?_eq_some hrow
      have hacc := find?_some hrow
      obtain ⟨hmatch, hrev, -, habs⟩ := accepts_eq_true hacc
      refine ⟨row, hmem, rfl, fun row' hrow' hid => inj_on_of_nodup_map h.ids hrow' hmem hid, hrev,
        Nat.lt_of_le_of_lt hc habs, fun hreq => ?_⟩
      rcases hmatch with hcur | ⟨ha, -⟩
      · obtain ⟨t, -, -, -, hnone⟩ := h.token_of_current hsound hmem hcur
        exact ⟨hcur, hnone⟩
      · rw [hreq] at ha
        cases ha
  newToken token ht hnot := by
    cases hs with
    | issue token' onboardingOnly clock clock' hc hc' hnew hid =>
      rcases mem_cons.mp ht with rfl | ht
      · exact .inl rfl
      · exact absurd ht hnot
    | rotate p token' sessionId next clock clock' hp hc hc' hrow hnew hid =>
      rcases mem_cons.mp ht with rfl | ht
      · exact .inr ⟨_, rfl, rfl⟩
      · exact absurd ht hnot
    | _ => exact absurd ht hnot
  rotated r he := by
    subst he
    cases hs with
    | rotate p token sessionId next clock clock' hp hc hc' hrow hnew hid =>
      obtain ⟨row, hmem, hrot⟩ := hrow
      obtain ⟨hrid, hhash, -, -⟩ := rotates_eq_true hrot
      obtain ⟨t, -, -, -, hnone⟩ := h.token_of_current hsound hmem hhash
      exact ⟨⟨row, hmem, hrid.trans hid.symm, hhash⟩, hnone, mem_cons_self⟩
  stays := hs.stays
  clock := hs.clock
  lateReuse p r hr hp hlate := by
    rcases hs.move p with hsame | hmove
    · exact .inl hsame
    · rw [hp] at hmove
      generalize w'.phase p = phase at hmove ⊢
      cases hmove with
      | touch _ _ row clock _ hc hrow ha =>
        have := (h.grace hsound hrow hr ha).2
        omega
      | touchNothing => exact .inr rfl
  revocation p token hp := by
    rcases hs.move p with hsame | hmove
    · exact .inl hsame
    · rw [hp] at hmove
      generalize w'.phase p = phase at hmove ⊢
      cases hmove
      exact .inr rfl

/-- **The rotation of session tokens is safe.** In every run of the calls, whatever tokens are
    presented and however the statements interleave. -/
theorem rotation_safe [DecidableEq π] (config : LocalSessionConfig) {crypto : TokenCrypto}
    (hsound : crypto.Sound) {w : SessionWorld π}
    (hr : Reachable SessionStart (fun w w' => ∃ event, SessionStep config crypto w event w') w) :
    RotationSafe crypto w ∧ ∀ event w', SessionStep config crypto w event w' →
      RotationStepSafe crypto w event w' := by
  have hinv : RotationInv crypto w := by
    refine hr.invariant (fun _ h => RotationInv.start h) ?_
    rintro w w' h ⟨event, hs⟩
    exact h.step hsound hs
  exact ⟨hinv.safe hsound, fun event w' hs => hinv.stepSafe hsound hs⟩

/-! ## 5. A session that is refreshed -/

/-- A hash without collisions, and a proof of the right form. -/
def plainTokens : TokenCrypto := ⟨fun token => "h" ++ token, fun _ => String.ofList (replicate 43 'A')⟩

theorem plainTokens_sound : plainTokens.Sound where
  injective a b h := by
    simpa [plainTokens] using h
  notZero token := by
    intro h
    have hhead : ("h" ++ token).toList.head? = zeroHash.toList.head? :=
      congrArg (fun s : String => s.toList.head?) h
    have hzero : zeroHash.toList.head? = some '0' := by decide +kernel
    rw [String.toList_append, hzero] at hhead
    cases hhead
  proofForm := by
    have hform : Common.isBase64UrlOf 43 (String.ofList (replicate 43 'A')) = true := by
      decide +kernel
    exact fun _ => hform

/-- The default lifetimes. -/
def defaultLifetimes : LocalSessionConfig := ⟨1800000, 43200000, 900000, by decide⟩

/-- Two tokens of one session. -/
def firstToken : SessionToken :=
  ⟨"0b9f8a52-6c1d-4e3f-9a7b-1c2d3e4f5a6b", String.ofList (replicate 43 'a')⟩

def secondToken : SessionToken := { firstToken with nonce := String.ofList (replicate 43 'b') }

theorem firstToken_wellFormed : firstToken.WellFormed where
  idPart := by decide +kernel
  familyId := by decide +kernel
  nonce := by decide +kernel

theorem secondToken_wellFormed : secondToken.WellFormed where
  idPart := firstToken_wellFormed.idPart
  familyId := firstToken_wellFormed.familyId
  nonce := by decide +kernel

/-- After a refresh there is one current token, and the first one has one successor. -/
theorem rotation_safe_of_refresh :
    ∃ w : SessionWorld Unit,
      Reachable SessionStart
        (fun w w' => ∃ event, SessionStep defaultLifetimes plainTokens w event w') w ∧
      w.rotations = [⟨firstToken.text plainTokens, secondToken, 0⟩] ∧
      RotationSafe plainTokens w := by
  let text := firstToken.text plainTokens
  let row := issueSession defaultLifetimes plainTokens firstToken false 0 0
  let w0 : SessionWorld Unit := ⟨0, [], [], [], fun _ => .idle⟩
  have h0 : Reachable SessionStart
      (fun w w' => ∃ event, SessionStep defaultLifetimes plainTokens w event w') w0 :=
    .start ⟨rfl, rfl, rfl, fun _ => rfl⟩
  have h1 := h0.next ⟨_, .issue firstToken false 0 0 (Nat.le_refl _) (Nat.le_refl _)
    ⟨firstToken_wellFormed, not_mem_nil, fun _ => nofun⟩ (by simp [w0])⟩
  have h2 := h1.next ⟨_, .present () text .refresh rfl⟩
  have haccepts : row.accepts (tokenHash plainTokens text) .refresh 0 = true := by decide +kernel
  have h3 := h2.next ⟨_, .touch () text .refresh row 0 0 rfl (Nat.le_refl _)
    (Nat.le_refl _) (find?_cons_of_pos haccepts)⟩
  have h4 := h3.next ⟨_, .allow () text .refresh firstToken.sessionId false _ rfl⟩
  have h5 := h4.next ⟨_, .rotate () text firstToken.sessionId secondToken 0 0 rfl
    (Nat.le_refl _) (Nat.le_refl _) ⟨_, mem_cons_self, by decide +kernel⟩
    ⟨secondToken_wellFormed, by decide +kernel, fun () => by decide +kernel⟩ rfl⟩
  exact ⟨_, h5, rfl, (rotation_safe defaultLifetimes plainTokens_sound h5).1⟩

end AdsManagement.Auth
