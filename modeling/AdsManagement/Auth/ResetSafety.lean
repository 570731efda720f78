/-
  File:      Auth/ResetSafety.lean
  Subject:   WHAT A PASSWORD RESET ENDS, over every interleaving of the calls on one account.

  * `LoginStep.own`, `AuthenticateStep.own`, `AcceptStep.own`, `CompleteStep.own`,
    `ResetPasswordStep.own` -- each call keeps the invariant up to its commit;
  * `ResetInv.commit`, `ResetInv.commitReset` -- and so do the commits;
  * `reset_ends_old_access` -- tokens and passwords in every run, sessions in the runs in which no
    password is completed between the two statements of an authentication.
-/
import AdsManagement.Auth.ResetInvariant
import AdsManagement.Auth.RotationSafety

namespace AdsManagement.Auth

open Lib Users Function

variable {π : Type} {config : LocalSessionConfig} {crypto : TokenCrypto}
  {verify : String → LocalCredential → Bool} {w w' w'' : ResetWorld π} {p q : π}
  {phase phase' : ResetPhase} {event : ResetEvent}

/-! ## 1. A call within its transaction -/

/-- Nothing has been written yet. -/
theorem ResetPhase.Extends.clean (hs : phase.writesStatus = none) (hc : phase.newCredential = none)
    (ht : phase.newToken = none) (hn : phase.newSession = none) : phase.Extends phase' :=
  ⟨.inl hs, .inl hc, .inl ht, .inl hn⟩

theorem Explained.readsAccount [DecidableEq π] (h : Explained w p phase) (hn : phase.writesStatus = none) :
    w.account.newest p = w.account.committed := by
  refine Cell.newest_of_unchanged fun account ha => ?_
  rcases h.account account ha with hc | hs
  · exact hc
  · rw [hn] at hs
    cases hs

theorem Explained.readsCredential [DecidableEq π] (h : Explained w p phase)
    (hn : phase.newCredential = none) : w.credential.newest p = w.credential.committed := by
  refine Cell.newest_of_unchanged fun credential hc => ?_
  rcases h.credential credential hc with hc | hs
  · exact hc
  · rw [hn] at hs
    cases hs

theorem ResetInv.at (h : ResetInv w) (hp : w.phase p = phase) : Explained w p phase ∧ Stands w p phase := by
  rw [← hp]
  exact ⟨h.explained p, h.stands p⟩

variable {id : String} {row : LocalSession}

/-- A row that a statement sees is known. -/
theorem ResetRows.known_of_newest [DecidableEq π] (h : ResetRows w)
    (hr : (w.sessions id).newest p = some row) : w.sessionSince id ≠ none := by
  intro hn
  obtain ⟨hc, hh⟩ := h.sessionKnown id hn
  have hnot : ∀ v, (w.sessions id).held ≠ some (p, v) := by
    intro v hv
    rw [hh] at hv
    cases hv
  rw [Cell.newest_of_not_held hnot, hc] at hr
  cases hr

theorem ResetRows.since_of_committed (h : ResetRows w) (hr : (w.sessions id).committed = some row) :
    ∃ k, w.sessionSince id = some k := by
  cases hk : w.sessionSince id with
  | some k => exact ⟨k, rfl⟩
  | none =>
    rw [(h.sessionKnown id hk).1] at hr
    cases hr

section Steps

variable [DecidableEq π]

/-- A step of a call that commits nothing. -/
structure OwnStep (p : π) (w w' : ResetWorld π) : Prop where
  quiet : QuietReset p w w'
  explained : Explained w' p (w'.phase p)
  stands : Stands w' p (w'.phase p)

variable {credential : LocalCredential}

theorem completing_goto : Completing (w.goto p phase') q credential ↔ Completing w q credential :=
  ⟨fun h => ⟨h.account, h.since, h.stored⟩, fun h => ⟨h.account, h.since, h.stored⟩⟩

theorem stands_goto : Stands (w.goto p phase') q phase ↔ Stands w q phase := by
  cases phase with
  | completeStored credential since | completeUpdated credential since =>
    exact and_congr_right fun _ => completing_goto
  | completeRevoking credential since pending | completeInserted credential id =>
    exact and_congr_right fun _ => and_congr_left fun _ => completing_goto
  | _ => exact Iff.rfl

theorem OwnStep.goto (hq : QuietReset p w w'') (he : Explained w'' p phase) (hs : Stands w'' p phase) :
    OwnStep p w (w''.goto p phase) := by
  have hphase : (w''.goto p phase).phase p = phase := update_self ..
  constructor
  · exact hq.goto phase
  · rw [hphase]
    exact ⟨he.account, he.credential, he.token, he.session⟩
  · rw [hphase]
    exact stands_goto.mpr hs

/-- A step that only goes on. -/
theorem OwnStep.move (he : Explained w p phase) (hx : phase.Extends phase') (hs : Stands w p phase') :
    OwnStep p w (w.goto p phase') :=
  .goto (.refl p w) (he.extend hx) hs

theorem mayLogin_eq_true {account : LocalAccount} (h : account.mayLogin = true) :
    account.inviteStatus = .ACTIVE := by
  simp only [LocalAccount.mayLogin, Bool.and_eq_true, decide_eq_true_eq] at h
  exact h.2

theorem LoginStep.own (h : ResetInv w) (hs : LoginStep config crypto verify w p event w') :
    OwnStep p w w' ∨ ∃ password credential id, w.phase p = .loginInserted password credential id ∧
      event = .signedIn password credential ∧ w' = w.commit p := by
  cases hs with
  | find password account hp ha | refuse password account hp hr =>
    obtain ⟨he, -⟩ := h.at hp
    exact .inl (.move he (.clean rfl rfl rfl rfl) trivial)
  | verify password account credential hp hc hv hm =>
    obtain ⟨he, -⟩ := h.at hp
    obtain ⟨k, hk⟩ := h.rows.credentialKnown credential hc
    exact .inl (.move he (.clean rfl rfl rfl rfl) ⟨k, hk, h.rows.credentialLe credential k hk⟩)
  | start password credential hp =>
    obtain ⟨he, hst⟩ := h.at hp
    exact .inl (.move he (.clean rfl rfl rfl rfl) ⟨Nat.le_refl _, hst⟩)
  | lockCredential password credential current since hp hfree hc =>
    obtain ⟨he, hst⟩ := h.at hp
    left
    refine .goto (.writeCredential hfree current) ?_ hst
    exact (he.extend (.clean rfl rfl rfl rfl)).writeCredential (.inl hc)
  | lockAccount password credential account since hp hfree ha =>
    obtain ⟨he, hst⟩ := h.at hp
    left
    refine .goto (.writeAccount hfree account) ?_ ⟨⟨account, rfl⟩, hst⟩
    exact (he.extend (.clean rfl rfl rfl rfl)).writeAccount (.inl ha)
  | insert password credential account since token clock clock' hp ha hm hc hnew =>
    obtain ⟨he, hacct, hle, k, hk, hks⟩ := h.at hp
    rw [he.readsAccount rfl] at ha
    rw [he.readsCredential rfl] at hc
    -- the password is that of an active account
    have hnow := h.rows.password account credential ha (mayLogin_eq_true hm) hc
    have hsince : since = w.resets := by
      rw [hk] at hnow
      cases hnow
      omega
    left
    refine .goto (.insertSession hnew hle) ?_ ⟨hacct, hnow, ?_⟩
    · exact (he.extend (.clean rfl rfl rfl rfl)).insertSession since rfl
    · rw [hsince]
      exact update_self ..
  | commit password credential id hp => exact .inr ⟨password, credential, id, hp, rfl, rfl⟩

omit [DecidableEq π] in
theorem stands_afterRefusal (token : String) (purpose : AuthPurpose) :
    Stands w p (afterRefusal token purpose) := by
  cases purpose <;> trivial

omit [DecidableEq π] in
theorem stands_afterAllowed (token id : String) (purpose : AuthPurpose) :
    Stands w p (afterAllowed token id purpose) := by
  cases purpose <;> trivial

section

variable (hash : String) (purpose : AuthPurpose) (clock clock' : Nat) (row : LocalSession)

theorem touchRow_revoked : (touchRow config hash purpose clock clock' row).revoked = row.revoked := by
  unfold touchRow
  split <;> rfl

theorem touchRow_onboardingOnly :
    (touchRow config hash purpose clock clock' row).onboardingOnly = row.onboardingOnly := by
  unfold touchRow
  split <;> rfl

end

theorem rotateRow_onboardingOnly (sessionId oldHash nextHash : String) (clock clock' : Nat)
    (row : LocalSession) :
    (rotateRow sessionId oldHash nextHash clock clock' row).onboardingOnly = row.onboardingOnly := by
  unfold rotateRow
  split <;> rfl

theorem AuthenticateStep.own (h : ResetInv w) (hs : AuthenticateStep config crypto w p event w') :
    OwnStep p w w' := by
  cases hs with
  | present token purpose hp | deny token purpose id onboardingOnly due hp hok
  | race token id clock hp hn | revokeNoFamily token hp hn =>
    obtain ⟨he, -⟩ := h.at hp
    exact .move he (.clean rfl rfl rfl rfl) trivial
  | touch token purpose id row clock clock' hp hheld hrow ha =>
    obtain ⟨he, -⟩ := h.at hp
    refine .goto (.setSession hheld hrow ?_ (touchRow_onboardingOnly ..)) ?_ trivial
    · exact fun ho => (touchRow_revoked ..).symm.trans ho
    · exact (he.extend (.clean rfl rfl rfl rfl)).setSession _
  | touchNothing token purpose clock hp hn | revokeNothing token purpose id hp hn =>
    obtain ⟨he, -⟩ := h.at hp
    exact .move he (.clean rfl rfl rfl rfl) (stands_afterRefusal token purpose)
  | allow token purpose id onboardingOnly due account hp ha hok =>
    obtain ⟨he, -⟩ := h.at hp
    exact .move he (.clean rfl rfl rfl rfl) (stands_afterAllowed token id purpose)
  | revokeOne token purpose id row hp hheld hrow =>
    obtain ⟨he, -⟩ := h.at hp
    refine .goto (.setSession hheld hrow nofun rfl) ?_ (stands_afterRefusal token purpose)
    exact (he.extend (.clean rfl rfl rfl rfl)).setSession _
  | rotate token id next row clock clock' hp hheld hrow hr hid =>
    obtain ⟨he, -⟩ := h.at hp
    refine .goto (.setSession hheld hrow ?_ (rotateRow_onboardingOnly ..)) ?_ trivial
    · exact fun ho => (rotateRow_revoked ..).symm.trans ho
    · exact (he.extend (.clean rfl rfl rfl rfl)).setSession _
  | revokeFamily token id row hp hid hheld hrow =>
    obtain ⟨he, -⟩ := h.at hp
    refine .goto (.setSession hheld hrow nofun rfl) ?_ trivial
    exact (he.extend (.clean rfl rfl rfl rfl)).setSession _

theorem AcceptStep.own (h : ResetInv w) (hs : AcceptStep config crypto w p event w') :
    OwnStep p w w' ∨ ∃ hash id, w.phase p = .acceptInserted hash id ∧ event = .setupAccepted hash ∧
      w' = { w.commit p with acceptedTokens := hash :: w.acceptedTokens } := by
  cases hs with
  | start hash hp =>
    obtain ⟨he, -⟩ := h.at hp
    exact .inl (.move he (.clean rfl rfl rfl rfl) ⟨Nat.le_refl _, h.rows.tokenLe hash⟩)
  | find hash since token account clock hp ht hlive hclock ha hm =>
    obtain ⟨he, hst⟩ := h.at hp
    exact .inl (.move he (.clean rfl rfl rfl rfl) hst)
  | lockToken hash since token hp hfree ht =>
    obtain ⟨he, hst⟩ := h.at hp
    left
    refine .goto (.writeToken hfree token) ?_ hst
    exact (he.extend (.clean rfl rfl rfl rfl)).writeToken fun _ => .inl ht
  | lockAccount hash since token account clock hp hfree ha hm ht hlive hclock =>
    obtain ⟨he, hle, hissued⟩ := h.at hp
    -- the token was locked as it was committed
    have hc : (w.tokens hash).committed = some token := by
      rcases he.token hash token ht hlive with hc | hn
      · exact hc
      · cases hn
    have hsince : since = w.resets := by
      have := hissued _ (h.rows.live hash token hc hlive)
      omega
    left
    refine .goto (.writeAccount hfree account) ?_
      ⟨⟨account, rfl⟩, hsince, ⟨token, hc, hlive⟩, token, ht⟩
    exact (he.extend (.clean rfl rfl rfl rfl)).writeAccount (.inl ha)
  | use hash since token hp ht hlive =>
    obtain ⟨he, hacct, hsince, hl, token', ht'⟩ := h.at hp
    have hfree : (w.tokens hash).Free p := by
      intro q v hq
      rw [ht'] at hq
      cases hq
      rfl
    have hused : ({ token with used := true } : SetupToken).live = false := by
      simp [SetupToken.live]
    left
    refine .goto (.writeToken hfree { token with used := true }) ?_ ⟨hacct, hsince, ⟨?_, ?_⟩, ?_⟩
    · exact (he.extend (.clean rfl rfl rfl rfl)).writeToken fun hn => by rw [hused] at hn; cases hn
    · simp only [ResetWorld.writeToken, Cell.update_lock_committed]
      exact hl
    · simp only [ResetWorld.writeToken, update_self]
      exact ⟨_, rfl⟩
    · unfold HoldsUsed
      simp only [ResetWorld.writeToken, update_self]
      exact ⟨_, rfl, hused⟩
  | update hash since account hp hfree ha =>
    obtain ⟨he, hacct, hst⟩ := h.at hp
    left
    refine .goto (.writeAccount hfree _) ?_ ⟨⟨_, rfl⟩, hst⟩
    exact (he.extend (.clean rfl rfl rfl rfl)).writeAccount (.inr rfl)
  | insert hash since token clock clock' hp hnew =>
    obtain ⟨he, hacct, hsince, hst⟩ := h.at hp
    left
    refine .goto (.insertSession hnew (Nat.le_of_eq hsince)) ?_ ⟨hacct, ?_, hst⟩
    · have hx : Explained w p (.acceptInserted hash token.sessionId) :=
        he.extend ⟨.inr rfl, .inl rfl, .inl rfl, .inl rfl⟩
      exact hx.insertSession since rfl
    · rw [hsince]
      exact update_self ..
  | commit hash id hp => exact .inr ⟨hash, id, hp, rfl, rfl⟩

theorem mayComplete_eq_true {clock : Nat} (h : row.mayComplete clock = true) :
    row.revoked = false ∧ row.onboardingOnly = true := by
  simp only [LocalSession.mayComplete, Bool.and_eq_true, Bool.not_eq_true'] at h
  exact ⟨h.1.1.2, h.1.1.1⟩

theorem CompleteStep.own (h : ResetInv w) (hs : CompleteStep config crypto w p event w') :
    OwnStep p w w' ∨ ∃ credential id, w.phase p = .completeInserted credential id ∧
      event = .completed ∧ w' = w.commit p := by
  cases hs with
  | hash id row credential hp hrow hnew =>
    obtain ⟨he, -⟩ := h.at hp
    obtain ⟨k, hk⟩ := h.rows.since_of_committed hrow
    have hquiet : QuietReset p w
        { w with credentialSince := Function.update w.credentialSince credential (some w.resets) } :=
      { QuietReset.refl p w with
        credentialSince := by
          intro credential' j hj
          have hne : credential' ≠ credential := by
            rintro rfl
            rw [hnew] at hj
            cases hj
          exact (update_of_ne hne _ _).trans hj
        credentialLe := by
          intro credential' j hj
          rcases update_eq_cases hj with ⟨-, he⟩ | ⟨-, he⟩
          · cases he
            exact .inr (Nat.le_refl _)
          · exact .inl he }
    have hx : Explained w p (.completeHashed id credential) := he.extend (.clean rfl rfl rfl rfl)
    left
    exact OwnStep.goto hquiet ⟨hx.account, hx.credential, hx.token, hx.session⟩
      ⟨k, w.resets, hk, update_self .., h.rows.sessionLe id k hk, Nat.le_refl _⟩
  | start id credential hp =>
    obtain ⟨he, hst⟩ := h.at hp
    exact .inl (.move he (.clean rfl rfl rfl rfl) ⟨Nat.le_refl _, hst⟩)
  | find id credential since row account clock hp hrow hok ha hm =>
    obtain ⟨he, hst⟩ := h.at hp
    exact .inl (.move he (.clean rfl rfl rfl rfl) hst)
  | lockSession id credential since row hp hfree hrow =>
    obtain ⟨he, hst⟩ := h.at hp
    have hst' := hst
    obtain ⟨-, k, j, hk, -⟩ := hst'
    left
    refine .goto (.writeSession hfree ?_ row) ?_ hst
    · rw [hk]
      exact Option.some_ne_none k
    · exact (he.extend (.clean rfl rfl rfl rfl)).writeSession fun _ => .inl hrow
  | lockAccount id credential since row account clock hp hfree ha hm hrow hok =>
    obtain ⟨he, hle, k, j, hk, hj, hkj, hjs⟩ := h.at hp
    obtain ⟨hr, hb⟩ := mayComplete_eq_true hok
    -- the session was locked as it was committed, so it is newer than the last reset
    have hc : (w.sessions id).committed = some row := by
      rcases he.session id row hrow hr with hc | hn
      · exact hc
      · cases hn
    have hnow := h.rows.onboarding id row hc hr hb
    rw [hk] at hnow
    cases hnow
    have hsince : since = w.resets := by omega
    have hj' : j = w.resets := by omega
    left
    refine .goto (.writeAccount hfree account) ?_ ⟨⟨account, rfl⟩, hsince, hj.trans (congrArg some hj')⟩
    exact (he.extend (.clean rfl rfl rfl rfl)).writeAccount (.inl ha)
  | store credential since hp hfree =>
    obtain ⟨he, hacct, hsince, hc⟩ := h.at hp
    left
    refine .goto (.writeCredential hfree credential) ?_ ⟨hsince, hacct, hc, rfl⟩
    exact (he.extend (.clean rfl rfl rfl rfl)).writeCredential (.inr rfl)
  | update credential since account hp hfree ha =>
    obtain ⟨he, hsince, hst⟩ := h.at hp
    left
    have hx : Explained w p (.completeUpdated credential since) :=
      he.extend ⟨.inl rfl, .inr rfl, .inl rfl, .inl rfl⟩
    exact .goto (.writeAccount hfree _) (hx.writeAccount (.inr rfl))
      ⟨hsince, ⟨_, rfl⟩, hst.since, hst.stored⟩
  | snapshot credential since hp =>
    obtain ⟨he, hsince, hst⟩ := h.at hp
    left
    exact .move he ⟨.inr rfl, .inr rfl, .inl rfl, .inl rfl⟩
      ⟨hsince, hst, .snapshot _ _ fun _ ho => ho⟩
  | revoke credential since pending id row hp hid hfree hrow hr =>
    obtain ⟨he, hsince, hst, hsw⟩ := h.at hp
    left
    have hx : Explained w p (.completeRevoking credential since (Function.update pending id false)) :=
      he.extend ⟨.inr rfl, .inr rfl, .inl rfl, .inl rfl⟩
    refine .goto (.writeSession hfree (h.rows.known_of_newest hrow) _) (hx.writeSession ?_)
      ⟨hsince, ⟨hst.account, hst.since, hst.stored⟩, hsw.write id rfl⟩
    nofun
  | skip credential since pending id row hp hid hfree hrow hr =>
    obtain ⟨he, hsince, hst, hsw⟩ := h.at hp
    left
    refine .move he ⟨.inr rfl, .inr rfl, .inl rfl, .inl rfl⟩ ⟨hsince, hst, hsw.skip hrow ?_⟩
    simp [LocalSession.isOpen, hr]
  | insert credential since pending token clock clock' hp hdone hnew =>
    obtain ⟨he, hsince, hst, hsw⟩ := h.at hp
    left
    refine .goto (.insertSession hnew (Nat.le_of_eq hsince)) ?_ ⟨?_, ⟨hst.account, hst.since, hst.stored⟩, ?_⟩
    · have hx : Explained w p (.completeInserted credential token.sessionId) :=
        he.extend ⟨.inr rfl, .inr rfl, .inl rfl, .inl rfl⟩
      exact hx.insertSession since rfl
    · rw [hsince]
      exact update_self ..
    · exact (hsw.closed hdone).insert hnew.committed _
  | commit credential id hp => exact .inr ⟨credential, id, hp, rfl, rfl⟩

theorem ResetPasswordStep.own (h : ResetInv w) (hs : ResetPasswordStep w p event w') :
    OwnStep p w w' ∨ ∃ hash, w.phase p = .resetUpdated hash ∧ event = .reset ∧
      (∀ q, (w.phase q).presents ≠ some hash) ∧ w' = w.commitReset p hash := by
  cases hs with
  | start hp =>
    obtain ⟨he, -⟩ := h.at hp
    exact .inl (.move he (.clean rfl rfl rfl rfl) trivial)
  | lock hp hfree =>
    obtain ⟨he, -⟩ := h.at hp
    have hquiet : QuietReset p w { w with resetLock := some p } :=
      { QuietReset.refl p w with
        resetLock := by
          intro q _ hq
          rw [hfree] at hq
          cases hq }
    have hx : Explained w p .resetLocked := he.extend (.clean rfl rfl rfl rfl)
    exact .inl (OwnStep.goto hquiet ⟨hx.account, hx.credential, hx.token, hx.session⟩ rfl)
  | check account hp ha hm =>
    obtain ⟨he, hst⟩ := h.at hp
    exact .inl (.move he (.clean rfl rfl rfl rfl) hst)
  | snapshotTokens hp =>
    obtain ⟨he, hst⟩ := h.at hp
    exact .inl (.move he (.clean rfl rfl rfl rfl) ⟨hst, .snapshot _ _ fun _ hl => hl⟩)
  | revokeToken pending hash token hp hid hfree ht hlive =>
    obtain ⟨he, hlock, hsw⟩ := h.at hp
    have hgone : ({ token with revoked := true } : SetupToken).live = false := by
      simp [SetupToken.live]
    left
    refine .goto (.writeToken hfree _) ?_ ⟨hlock, hsw.write hash hgone⟩
    exact (he.extend (.clean rfl rfl rfl rfl)).writeToken fun hn => by rw [hgone] at hn; cases hn
  | skipToken pending hash token hp hid hfree ht hlive =>
    obtain ⟨he, hlock, hsw⟩ := h.at hp
    exact .inl (.move he (.clean rfl rfl rfl rfl) ⟨hlock, hsw.skip ht hlive⟩)
  | snapshotSessions pending hp hdone =>
    obtain ⟨he, hlock, hsw⟩ := h.at hp
    left
    refine .move he (.clean rfl rfl rfl rfl) ⟨⟨hlock, hsw.closed hdone⟩, .snapshot _ _ ?_⟩
    intro row ho
    exact (Bool.and_eq_true _ _ ▸ ho).1
  | revokeSession pending id row hp hid hfree hrow hr =>
    obtain ⟨he, hgone, hsw⟩ := h.at hp
    left
    refine .goto (.writeSession hfree (h.rows.known_of_newest hrow) _) ?_ ⟨hgone, hsw.write id rfl⟩
    exact (he.extend (.clean rfl rfl rfl rfl)).writeSession nofun
  | skipSession pending id row hp hid hfree hrow hr =>
    obtain ⟨he, hgone, hsw⟩ := h.at hp
    left
    refine .move he (.clean rfl rfl rfl rfl) ⟨hgone, hsw.skip hrow ?_⟩
    simp [LocalSession.onboards, hr]
  | createSetupToken pending hash expiresAt hp hdone hnew hheld =>
    obtain ⟨he, ⟨hlock, hgone⟩, hsw⟩ := h.at hp
    have hfree : (w.tokens hash).Free p := by
      intro q v hq
      rw [hheld] at hq
      cases hq
    have hnever : hash ∉ w.acceptedTokens := by
      intro hmem
      obtain ⟨token, ht, -⟩ := h.rows.accepted hash hmem
      rw [hnew] at ht
      cases ht
    left
    refine .goto (.writeToken hfree _) ?_
      ⟨⟨hlock, hgone.insert hnew _⟩, hsw.closed hdone, hnever, ⟨false, false, expiresAt⟩, ?_⟩
    · exact (he.extend (.clean rfl rfl rfl rfl)).writeToken fun _ => .inr rfl
    · simp only [ResetWorld.writeToken, update_self, Cell.lock_held]
  | update hash account hp hfree ha =>
    obtain ⟨he, hgone, hsw, hnew⟩ := h.at hp
    left
    have hx : Explained w p (.resetUpdated hash) :=
      he.extend ⟨.inl rfl, .inl rfl, .inr rfl, .inl rfl⟩
    exact .goto (.writeAccount hfree _) (hx.writeAccount (.inr rfl)) ⟨hgone, hsw, hnew, _, rfl, rfl⟩
  | commit hash hp hsecret => exact .inr ⟨hash, hp, rfl, hsecret, rfl⟩

/-! ## 2. Commits -/

omit [DecidableEq π] in
theorem Stands.of_newSession {onboardingOnly : Bool} (h : Stands w p phase)
    (hn : phase.newSession = some (id, onboardingOnly)) :
    HoldsAccount w p ∧ w.sessionSince id = some w.resets ∧
      (onboardingOnly = true → ∃ hash, HoldsLive w p hash) := by
  cases phase with
  | loginInserted password credential id' =>
    cases hn
    exact ⟨h.1, h.2.2, nofun⟩
  | acceptInserted hash id' =>
    cases hn
    exact ⟨h.1, h.2.1, fun _ => ⟨hash, h.2.2.1⟩⟩
  | completeInserted credential id' =>
    cases hn
    exact ⟨h.2.1.account, h.1, nofun⟩
  | _ => cases hn

variable {hash : String}

omit [DecidableEq π] in
theorem Stands.of_newToken (h : Stands w p phase) (hn : phase.newToken = some hash) :
    w.resetLock = some p ∧ hash ∉ w.acceptedTokens := by
  cases phase with
  | resetIssued hash' =>
    cases hn
    exact ⟨h.1.1, h.2.2.1⟩
  | resetUpdated hash' =>
    cases hn
    exact ⟨h.1.1, h.2.2.1.1⟩
  | _ => cases hn

omit [DecidableEq π] in
theorem Stands.of_newCredential (h : Stands w p phase) (hn : phase.newCredential = some credential) :
    w.credentialSince credential = some w.resets := by
  cases phase with
  | completeStored credential' since | completeUpdated credential' since =>
    cases hn
    exact h.2.since
  | completeRevoking credential' since pending | completeInserted credential' id =>
    cases hn
    exact h.2.1.since
  | _ => cases hn

section

variable (h : ResetInv w)
include h

/-- An open session after a commit was one before, or is the one that was inserted. -/
theorem ResetInv.session_of_commit (hr : ((w.commit p).sessions id).committed = some row)
    (ho : row.revoked = false) :
    (w.sessions id).committed = some row ∨ (w.phase p).newSession = some (id, row.onboardingOnly) := by
  rcases Cell.commit_committed hr with hheld | ⟨-, hc⟩
  · exact (h.explained p).session id row hheld ho
  · exact .inl hc

theorem ResetInv.token_of_commit {token : SetupToken}
    (ht : ((w.commit p).tokens hash).committed = some token) (hl : token.live = true) :
    (w.tokens hash).committed = some token ∨ (w.phase p).newToken = some hash := by
  rcases Cell.commit_committed ht with hheld | ⟨-, hc⟩
  · exact (h.explained p).token hash token hheld hl
  · exact .inl hc

theorem ResetInv.frame_commit (p : π) : ResetFrame p w (w.commit p) where
  account := Cell.keeps_commit p _
  credential := Cell.keeps_commit p _
  tokens _ := Cell.keeps_commit p _
  sessions _ := Cell.keeps_commit p _
  phase q hne := update_of_ne hne _ _
  resetLock q hne hq := by
    have hnot : ¬ w.resetLock = some p := by
      rw [hq]
      rintro he
      cases he
      exact hne rfl
    simp only [ResetWorld.commit, if_neg hnot]
    exact hq
  resets := .inl rfl
  sessionSince _ _ hk := hk
  credentialSince _ _ hk := hk
  tokenSince _ := .inl rfl
  live hash token ht hl := by
    rcases h.token_of_commit ht hl with hc | hn
    · exact .inl ⟨token, hc, hl⟩
    · exact .inr ((h.stands p).of_newToken hn).1
  acceptedTokens _ hmem := .inl hmem
  opened id row hr ho := by
    rcases h.session_of_commit hr ho with hc | hn
    · exact .inl ⟨row, hc, ho, rfl⟩
    · obtain ⟨hacct, -, hlive⟩ := (h.stands p).of_newSession hn
      exact .inr ⟨hacct, hlive⟩

theorem ResetInv.sessionKnown_commit (p : π) (hn : w.sessionSince id = none) :
    ((w.commit p).sessions id).committed = none ∧ ((w.commit p).sessions id).held = none := by
  obtain ⟨hc, hh⟩ := h.rows.sessionKnown id hn
  have he : (w.sessions id).commit p = w.sessions id := by
    refine Cell.commit_of_not_held fun v hv => ?_
    rw [hh] at hv
    cases hv
  simp only [ResetWorld.commit, he]
  exact ⟨hc, hh⟩

theorem ResetInv.credentialKnown_commit (hc : (w.commit p).credential.committed = some credential) :
    ∃ k, w.credentialSince credential = some k := by
  rcases Cell.commit_committed hc with hheld | ⟨-, hc⟩
  · rcases (h.explained p).credential credential hheld with hc | hn
    · exact h.rows.credentialKnown credential hc
    · exact ⟨_, (h.stands p).of_newCredential hn⟩
  · exact h.rows.credentialKnown credential hc

theorem ResetInv.accepted_commit (p : π) (hmem : hash ∈ w.acceptedTokens) :
    ∃ token, ((w.commit p).tokens hash).committed = some token ∧ token.live = false := by
  obtain ⟨token, ht, hl⟩ := h.rows.accepted hash hmem
  by_cases hp : ∃ v, (w.tokens hash).held = some (p, v)
  · obtain ⟨v, hv⟩ := hp
    refine ⟨v, by simp only [ResetWorld.commit, Cell.commit_of_held hv], ?_⟩
    cases hlive : v.live with
    | false => rfl
    | true =>
      rcases (h.explained p).token hash v hv hlive with hc | hn
      · rw [ht] at hc
        cases hc
        rw [hl] at hlive
        cases hlive
      · exact absurd hmem ((h.stands p).of_newToken hn).2
  · refine ⟨token, ?_, hl⟩
    simp only [ResetWorld.commit, Cell.commit_of_not_held (not_exists.mp hp)]
    exact ht

/-- **The commit of a login, a setup or a completion**: who makes the account active has stored a new
    password and revoked every session. -/
theorem ResetInv.rows_commit (htoken : (w.phase p).newToken = none)
    (hactive : (w.phase p).writesStatus = some .ACTIVE →
      (∃ credential, Completing w p credential) ∧ Swept w.sessions p LocalSession.isOpen fun _ => false) :
    ResetRows (w.commit p) where
  password account credential ha hs hc := by
    have haccount := Cell.commit_committed ha
    have hnew : (w.phase p).writesStatus = some .ACTIVE → w.credentialSince credential = some w.resets := by
      intro hwrite
      obtain ⟨⟨credential', hcomp⟩, -⟩ := hactive hwrite
      have hstored : (w.credential.commit p).committed = some credential' := by
        rw [Cell.commit_of_held hcomp.stored]
      have he : credential' = credential := Option.some.inj (hstored.symm.trans hc)
      rw [← he]
      exact hcomp.since
    have hold : w.account.committed = some account → w.credentialSince credential = some w.resets := by
      intro ha'
      rcases Cell.commit_committed hc with hheld | ⟨-, hc'⟩
      · rcases (h.explained p).credential credential hheld with hc' | hn
        · exact h.rows.password account credential ha' hs hc'
        · exact (h.stands p).of_newCredential hn
      · exact h.rows.password account credential ha' hs hc'
    rcases haccount with hheld | ⟨-, ha'⟩
    · rcases (h.explained p).account account hheld with ha' | hwrite
      · exact hold ha'
      · exact hnew (hwrite.trans (congrArg some hs))
    · exact hold ha'
  full account id row ha hs hr ho hb := by
    have hinserted : (w.phase p).newSession = some (id, row.onboardingOnly) →
        w.sessionSince id = some w.resets := fun hn => ((h.stands p).of_newSession hn).2.1
    have hold : w.account.committed = some account → w.sessionSince id = some w.resets := by
      intro ha'
      rcases h.session_of_commit hr ho with hc | hn
      · exact h.rows.full account id row ha' hs hc ho hb
      · exact hinserted hn
    rcases Cell.commit_committed ha with hheld | ⟨-, ha'⟩
    · rcases (h.explained p).account account hheld with ha' | hwrite
      · exact hold ha'
      · -- what was committed is revoked
        obtain ⟨-, hsw⟩ := hactive (hwrite.trans (congrArg some hs))
        obtain ⟨hheld, hne⟩ := hsw.commit hr (by simp [LocalSession.isOpen, ho])
        rcases (h.explained p).session id row hheld ho with hc | hn
        · exact absurd hc hne
        · exact hinserted hn
    · exact hold ha'
  onboarding id row hr ho hb := by
    rcases h.session_of_commit hr ho with hc | hn
    · exact h.rows.onboarding id row hc ho hb
    · exact ((h.stands p).of_newSession hn).2.1
  live hash token ht hl := by
    rcases h.token_of_commit ht hl with hc | hn
    · exact h.rows.live hash token hc hl
    · rw [htoken] at hn
      cases hn
  sessionKnown _ hn := h.sessionKnown_commit p hn
  credentialKnown _ hc := h.credentialKnown_commit hc
  sessionLe := h.rows.sessionLe
  credentialLe := h.rows.credentialLe
  tokenLe := h.rows.tokenLe
  accepted _ hmem := h.accepted_commit p hmem

/-- **The commit of a reset**: no setup token and no onboarding session that was there is open. -/
theorem ResetInv.rows_commitReset (hp : w.phase p = .resetUpdated hash) :
    ResetRows (w.commitReset p hash) := by
  obtain ⟨hexpl, ⟨hlock, htokens⟩, hsessions, hnew, invited, hinvited, hstatus⟩ := h.at hp
  have haccount : ∀ account, (w.account.commit p).committed = some account →
      account.inviteStatus = .ACTIVE → False := by
    intro account ha hs
    rw [Cell.commit_of_held hinvited] at ha
    cases ha
    rw [hstatus] at hs
    cases hs
  constructor
  · exact fun account credential ha hs _ => (haccount account ha hs).elim
  · exact fun account id row ha hs _ _ _ => (haccount account ha hs).elim
  · intro id row hr ho hb
    obtain ⟨hheld, hne⟩ := hsessions.commit hr (by simp [LocalSession.onboards, ho, hb])
    rcases hexpl.session id row hheld ho with hc | hn
    · exact absurd hc hne
    · cases hn
  · intro hash' token ht hl
    obtain ⟨hheld, hne⟩ := htokens.commit ht hl
    rcases hexpl.token hash' token hheld hl with hc | hn
    · exact absurd hc hne
    · cases hn
      exact update_self ..
  · exact fun id hn => h.sessionKnown_commit p hn
  · exact fun credential hc => h.credentialKnown_commit hc
  · exact fun id k hk => Nat.le_succ_of_le (h.rows.sessionLe id k hk)
  · exact fun credential k hk => Nat.le_succ_of_le (h.rows.credentialLe credential k hk)
  · intro hash' k hk
    rcases update_eq_cases hk with ⟨-, he⟩ | ⟨-, he⟩
    · cases he
      exact Nat.le_refl _
    · exact Nat.le_succ_of_le (h.rows.tokenLe hash' k he)
  · exact fun hash' hmem => h.accepted_commit p hmem

end

/-! ## 3. Every step -/

section

variable (h : ResetInv w)
include h

theorem ResetInv.of_frame (hf : ResetFrame p w w')
    (he : Explained w' p (w'.phase p)) (hs : Stands w' p (w'.phase p)) (hrows : ResetRows w') :
    ResetInv w' where
  explained q := by
    by_cases hq : q = p
    · subst hq
      exact he
    · rw [hf.phase q hq]
      exact hf.explained hq (h.explained q)
  stands q := by
    by_cases hq : q = p
    · subst hq
      exact hs
    · rw [hf.phase q hq]
      exact hf.stands hq (h.stands q)
  rows := hrows

theorem ResetInv.own (hs : OwnStep p w w') : ResetInv w' :=
  h.of_frame hs.quiet.frame hs.explained hs.stands (hs.quiet.rows h.rows)

theorem ResetInv.commit (htoken : (w.phase p).newToken = none)
    (hactive : (w.phase p).writesStatus = some .ACTIVE →
      (∃ credential, Completing w p credential) ∧ Swept w.sessions p LocalSession.isOpen fun _ => false) :
    ResetInv (w.commit p) := by
  have hphase : (w.commit p).phase p = .ended := update_self ..
  refine h.of_frame (h.frame_commit p) (.commit w p _) ?_ (h.rows_commit htoken hactive)
  rw [hphase]
  trivial

theorem ResetInv.commitAccept (hp : w.phase p = .acceptInserted hash id) :
    ResetInv { w.commit p with acceptedTokens := hash :: w.acceptedTokens } := by
  obtain ⟨-, -, -, -, token, hheld, hl⟩ := h.at hp
  have hphase : (w.commit p).phase p = .ended := update_self ..
  have hframe := h.frame_commit p
  have hrows : ResetRows (w.commit p) := h.rows_commit (by rw [hp]; rfl) (by rw [hp]; nofun)
  refine h.of_frame (p := p) ?_ ?_ ?_ ?_
  · exact
      { hframe with
        acceptedTokens := by
          intro hash' hmem
          rcases List.mem_cons.mp hmem with rfl | hmem
          · exact .inr ⟨token, hheld⟩
          · exact .inl hmem }
  · exact { Explained.commit w p _ with }
  · rw [hphase]
    trivial
  · exact
      { hrows with
        accepted := by
          intro hash' hmem
          rcases List.mem_cons.mp hmem with rfl | hmem
          · exact ⟨token, by simp only [ResetWorld.commit, Cell.commit_of_held hheld], hl⟩
          · exact h.accepted_commit p hmem }

theorem ResetInv.commitReset (hp : w.phase p = .resetUpdated hash)
    (hsecret : ∀ q, (w.phase q).presents ≠ some hash) : ResetInv (w.commitReset p hash) := by
  obtain ⟨-, -, -, -, account, hacct, -⟩ := h.at hp
  have hphase : (w.commit p).phase p = .ended := update_self ..
  have hframe := h.frame_commit p
  refine h.of_frame (p := p) ?_ ?_ ?_ (h.rows_commitReset hp)
  · exact
      { hframe with
        resets := .inr ⟨Nat.le_succ _, account, hacct⟩
        tokenSince := by
          intro hash'
          by_cases he : hash' = hash
          · rw [he]
            exact .inr hsecret
          · exact .inl (update_of_ne he _ _) }
  · exact { Explained.commit w p _ with }
  · show Stands _ p ((w.commit p).phase p)
    rw [hphase]
    trivial

/-- **Every step keeps the invariant.** -/
theorem ResetInv.step (hs : ResetStep config crypto verify w p event w') : ResetInv w' := by
  cases hs with
  | login hs =>
    rcases hs.own h with hown | ⟨password, credential, id, hp, -, rfl⟩
    · exact h.own hown
    · exact h.commit (by rw [hp]; rfl) (by rw [hp]; nofun)
  | authenticate hs => exact h.own (hs.own h)
  | accept hs =>
    rcases hs.own h with hown | ⟨hash, id, hp, -, rfl⟩
    · exact h.own hown
    · exact h.commitAccept hp
  | complete hs =>
    rcases hs.own h with hown | ⟨credential, id, hp, -, rfl⟩
    · exact h.own hown
    · obtain ⟨-, -, hcomp, hsw⟩ := h.at hp
      exact h.commit (by rw [hp]; rfl) fun _ => ⟨⟨credential, hcomp⟩, hsw⟩
  | resetPassword hs =>
    rcases hs.own h with hown | ⟨hash, hp, -, hsecret, rfl⟩
    · exact h.own hown
    · exact h.commitReset hp hsecret
  | abort hp =>
    have hphase : (w.abort p).phase p = .ended := update_self ..
    have hquiet := QuietReset.abort w p
    refine h.of_frame hquiet.frame (.abort w p _) ?_ (hquiet.rows h.rows)
    rw [hphase]
    trivial

end

/-! ## 4. What a step does -/

/-- A password that went through was verified. -/
def ResetPhase.Checked (verify : String → LocalCredential → Bool) : ResetPhase → Prop
  | .loginVerified password credential => verify password credential = true
  | .loginBegun password credential _ => verify password credential = true
  | .loginCredentialLocked password credential _ => verify password credential = true
  | .loginLocked password credential _ => verify password credential = true
  | .loginInserted password credential _ => verify password credential = true
  | _ => True

/-- What a call does to its own phase: a session it has touched was open. -/
structure OwnPhase (verify : String → LocalCredential → Bool) (w : ResetWorld π)
    (phase phase' : ResetPhase) : Prop where
  checked : phase.Checked verify → phase'.Checked verify
  touched : ∀ token purpose id onboardingOnly due,
    phase' = .touched token purpose id onboardingOnly due →
    ∃ row, (w.sessions id).committed = some row ∧ row.revoked = false ∧ row.onboardingOnly = onboardingOnly

theorem accepts_open {purpose : AuthPurpose} {clock : Nat} (h : row.accepts hash purpose clock = true) :
    row.revoked = false := by
  simp only [LocalSession.accepts, Bool.and_eq_true, Bool.not_eq_true'] at h
  exact h.1.1.2

theorem LoginStep.ownPhase (hs : LoginStep config crypto verify w p event w') :
    OwnPhase verify w (w.phase p) (w'.phase p) := by
  cases hs with
  | verify password account credential hp hc hv hm =>
    simp only [ResetWorld.goto, update_self]
    exact ⟨fun _ => hv, fun _ _ _ _ _ e => by cases e⟩
  | start password credential hp | lockCredential password credential current since hp hfree hc
  | lockAccount password credential account since hp hfree ha
  | insert password credential account since token clock clock' hp ha hm hc hnew =>
    rw [hp]
    simp only [ResetWorld.goto, update_self]
    exact ⟨fun h => h, fun _ _ _ _ _ e => by cases e⟩
  | commit password credential id hp =>
    simp only [ResetWorld.commit, update_self]
    exact ⟨fun _ => trivial, fun _ _ _ _ _ e => by cases e⟩
  | _ =>
    simp only [ResetWorld.goto, update_self]
    exact ⟨fun _ => trivial, fun _ _ _ _ _ e => by cases e⟩

theorem AuthenticateStep.ownPhase (hs : AuthenticateStep config crypto w p event w') :
    OwnPhase verify w (w.phase p) (w'.phase p) := by
  have hrefuse : ∀ phase token purpose, OwnPhase verify w phase (afterRefusal token purpose) := by
    intro phase token purpose
    cases purpose <;> exact ⟨fun _ => trivial, fun _ _ _ _ _ e => by cases e⟩
  have hallow : ∀ phase token id purpose, OwnPhase verify w phase (afterAllowed token id purpose) := by
    intro phase token id purpose
    cases purpose <;> exact ⟨fun _ => trivial, fun _ _ _ _ _ e => by cases e⟩
  cases hs with
  | touch token purpose id row clock clock' hp hheld hrow ha =>
    simp only [ResetWorld.goto, update_self]
    refine ⟨fun _ => trivial, ?_⟩
    intro token' purpose' id' onboardingOnly due he
    cases he
    exact ⟨row, hrow, accepts_open ha, rfl⟩
  | touchNothing token purpose clock hp hn | revokeOne token purpose id row hp hheld hrow
  | revokeNothing token purpose id hp hn =>
    simp only [ResetWorld.goto, update_self]
    exact hrefuse _ token purpose
  | allow token purpose id onboardingOnly due account hp ha hok =>
    simp only [ResetWorld.goto, update_self]
    exact hallow _ token id purpose
  | _ =>
    simp only [ResetWorld.goto, update_self]
    exact ⟨fun _ => trivial, fun _ _ _ _ _ e => by cases e⟩

theorem ResetStep.ownPhase (hs : ResetStep config crypto verify w p event w') :
    OwnPhase verify w (w.phase p) (w'.phase p) := by
  cases hs with
  | login hs | authenticate hs => exact hs.ownPhase
  | accept hs | complete hs =>
    cases hs <;> simp only [ResetWorld.goto, ResetWorld.commit, update_self] <;>
      exact ⟨fun _ => trivial, fun _ _ _ _ _ e => by cases e⟩
  | resetPassword hs =>
    cases hs <;>
      simp only [ResetWorld.goto, ResetWorld.commitReset, ResetWorld.commit, update_self] <;>
      exact ⟨fun _ => trivial, fun _ _ _ _ _ e => by cases e⟩
  | abort hp =>
    simp only [ResetWorld.abort, update_self]
    exact ⟨fun _ => trivial, fun _ _ _ _ _ e => by cases e⟩

/-- No authentication stands between its two statements with a full session of before the last
    reset. -/
def NoStaleTouch (w : ResetWorld π) : Prop :=
  ∀ q token purpose id due, w.phase q = .touched token purpose id false due →
    w.sessionSince id = some w.resets

/-- What a step leaves to an authentication, and how the account can be active after it. -/
structure ActiveFrame (p : π) (event : ResetEvent) (w w' : ResetWorld π) : Prop where
  phase : ∀ q, q ≠ p → w'.phase q = w.phase q
  sessionSince : ∀ id k, w.sessionSince id = some k → w'.sessionSince id = some k
  active : ∀ account, w'.account.committed = some account → account.inviteStatus = .ACTIVE →
    w'.resets = w.resets ∧
    ((∃ account', w.account.committed = some account' ∧ account'.inviteStatus = .ACTIVE) ∨
      event = .completed ∧ w'.phase p = .ended)

omit [DecidableEq π] in
theorem OwnStep.activeFrame (hs : OwnStep p w w') : ActiveFrame p event w w' where
  phase := hs.quiet.phase
  sessionSince := hs.quiet.sessionSince
  active account ha hactive := by
    rw [hs.quiet.accountCommitted] at ha
    exact ⟨hs.quiet.resets, .inl ⟨account, ha, hactive⟩⟩

/-- A commit makes the account active only if the call has said so. -/
theorem ResetInv.activeFrame_commit (h : ResetInv w)
    (hc : (w.phase p).writesStatus = some .ACTIVE → event = .completed) :
    ActiveFrame p event w (w.commit p) where
  phase q hne := update_of_ne hne _ _
  sessionSince _ _ hk := hk
  active account ha hactive := by
    refine ⟨rfl, ?_⟩
    rcases Cell.commit_committed ha with hheld | ⟨-, ha'⟩
    · rcases (h.explained p).account account hheld with ha' | hwrite
      · exact .inl ⟨account, ha', hactive⟩
      · exact .inr ⟨hc (hwrite.trans (congrArg some hactive)), update_self ..⟩
    · exact .inl ⟨account, ha', hactive⟩

theorem ResetStep.activeFrame (h : ResetInv w) (hs : ResetStep config crypto verify w p event w') :
    ActiveFrame p event w w' := by
  cases hs with
  | login hs =>
    rcases hs.own h with hown | ⟨password, credential, id, hp, -, rfl⟩
    · exact hown.activeFrame
    · exact h.activeFrame_commit (by rw [hp]; nofun)
  | authenticate hs => exact (hs.own h).activeFrame
  | accept hs =>
    rcases hs.own h with hown | ⟨hash, id, hp, -, rfl⟩
    · exact hown.activeFrame
    · have hframe : ActiveFrame p event w (w.commit p) := h.activeFrame_commit (by rw [hp]; nofun)
      exact ⟨hframe.phase, hframe.sessionSince, hframe.active⟩
  | complete hs =>
    rcases hs.own h with hown | ⟨credential, id, hp, he, rfl⟩
    · exact hown.activeFrame
    · exact h.activeFrame_commit fun _ => he
  | resetPassword hs =>
    rcases hs.own h with hown | ⟨hash, hp, -, -, rfl⟩
    · exact hown.activeFrame
    · obtain ⟨-, -, -, -, invited, hinvited, hstatus⟩ := h.at hp
      refine ⟨fun q hne => update_of_ne hne _ _, fun _ _ hk => hk, ?_⟩
      intro account ha hactive
      have he : (w.account.commit p).committed = some account := ha
      rw [Cell.commit_of_held hinvited] at he
      cases he
      rw [hstatus] at hactive
      cases hactive
  | abort hp =>
    have hquiet := QuietReset.abort w p
    refine ⟨hquiet.phase, hquiet.sessionSince, ?_⟩
    intro account ha hactive
    rw [hquiet.accountCommitted] at ha
    exact ⟨rfl, .inl ⟨account, ha, hactive⟩⟩

/-- While the account is active, no authentication has touched a session of before the last reset. -/
def TouchSafe (w : ResetWorld π) : Prop :=
  ∀ account, w.account.committed = some account → account.inviteStatus = .ACTIVE → NoStaleTouch w

theorem TouchSafe.step (ht : TouchSafe w) (h : ResetInv w)
    (hs : ResetStep config crypto verify w p event w') (hcalm : event = .completed → NoStaleTouch w) :
    TouchSafe w' := by
  have hframe := hs.activeFrame h
  intro account ha hactive q token purpose id due hq
  obtain ⟨hresets, hwas⟩ := hframe.active account ha hactive
  rw [hresets]
  by_cases hqp : q = p
  · subst hqp
    rcases hwas with ⟨account', ha', hactive'⟩ | ⟨-, hended⟩
    · obtain ⟨row, hrow, hopen, hfull⟩ := hs.ownPhase.touched token purpose id false due hq
      exact hframe.sessionSince _ _ (h.rows.full account' id row ha' hactive' hrow hopen hfull)
    · rw [hended] at hq
      cases hq
  · rw [hframe.phase q hqp] at hq
    rcases hwas with ⟨account', ha', hactive'⟩ | ⟨he, -⟩
    · exact hframe.sessionSince _ _ (ht account' ha' hactive' q token purpose id due hq)
    · exact hframe.sessionSince _ _ (hcalm he q token purpose id due hq)

/-! ## 5. The reset ends old access -/

section

variable (config : LocalSessionConfig) (crypto : TokenCrypto) (verify : String → LocalCredential → Bool)
  (w w' : ResetWorld π)

/-- Any step of any call. -/
def ResetRun : Prop :=
  ∃ p event, ResetStep config crypto verify w p event w'

/-- No password is completed while an authentication stands between its two statements with a full
    session of before the last reset. -/
def CalmRun : Prop :=
  ∃ p event, ResetStep config crypto verify w p event w' ∧ (event = .completed → NoStaleTouch w)

end

/-- What holds of every step for passwords and setup tokens. -/
structure ResetStepSafe (verify : String → LocalCredential → Bool) (w : ResetWorld π)
    (event : ResetEvent) : Prop where
  /-- Who signs in has verified a password that was made after the last reset. -/
  signedIn : ∀ password credential, event = .signedIn password credential →
    verify password credential = true ∧ w.credentialSince credential = some w.resets
  /-- A setup token is accepted once, and is the one of the last reset. -/
  setupAccepted : ∀ hash, event = .setupAccepted hash →
    hash ∉ w.acceptedTokens ∧ w.tokenSince hash = some w.resets

theorem allows_full {account : LocalAccount} (h : account.allows false = true) :
    account.inviteStatus = .ACTIVE := by
  simp only [LocalAccount.allows, Bool.and_eq_true, Bool.or_eq_true, decide_eq_true_eq] at h
  obtain ⟨⟨-, hflag⟩, hstatus⟩ := h
  rcases hstatus with hpending | hactive
  · rw [decide_eq_true hpending] at hflag
    cases hflag
  · exact hactive

/-- A session is accepted as a full one after the account was seen active. -/
theorem AuthenticateStep.event_cases (hs : AuthenticateStep config crypto w p event w') :
    event = .quiet ∨ ∃ token purpose id due account, event = .accepted id ∧
      w.phase p = .touched token purpose id false due ∧ w.account.committed = some account ∧
      account.inviteStatus = .ACTIVE := by
  cases hs with
  | allow token purpose id onboardingOnly due account hp ha hok =>
    cases onboardingOnly with
    | true => exact .inl rfl
    | false =>
      unfold allowedEvent
      rw [if_neg Bool.false_ne_true]
      split
      · exact .inl rfl
      · exact .inr ⟨token, purpose, id, due, account, rfl, hp, ha, allows_full hok⟩
  | _ => exact .inl rfl

theorem ResetInv.stepSafe (h : ResetInv w) (hchecked : ∀ p, (w.phase p).Checked verify)
    (hs : ResetStep config crypto verify w p event w') : ResetStepSafe verify w event where
  signedIn password credential he := by
    subst he
    cases hs with
    | login hs =>
      cases hs with
      | commit _ _ id hp =>
        obtain ⟨-, -, hsince, -⟩ := h.at hp
        have hv := hchecked p
        rw [hp] at hv
        exact ⟨hv, hsince⟩
    | authenticate hs => rcases hs.event_cases with he | ⟨_, _, _, _, _, he, -⟩ <;> cases he
    | accept hs | complete hs | resetPassword hs => cases hs
  setupAccepted hash he := by
    subst he
    cases hs with
    | login hs | complete hs | resetPassword hs => cases hs
    | authenticate hs => rcases hs.event_cases with he | ⟨_, _, _, _, _, he, -⟩ <;> cases he
    | accept hs =>
      cases hs with
      | commit _ id hp =>
        obtain ⟨-, -, -, ⟨⟨token, ht, hl⟩, -⟩, -⟩ := h.at hp
        refine ⟨fun hmem => ?_, h.rows.live hash token ht hl⟩
        obtain ⟨token', ht', hl'⟩ := h.rows.accepted hash hmem
        rw [ht] at ht'
        cases ht'
        rw [hl] at hl'
        cases hl'

theorem TouchSafe.accepted (ht : TouchSafe w) (hs : ResetStep config crypto verify w p (.accepted id) w') :
    w.sessionSince id = some w.resets := by
  cases hs with
  | login hs | accept hs | complete hs | resetPassword hs => cases hs
  | authenticate hs =>
    rcases hs.event_cases with he | ⟨token, purpose, _, due, account, he, hp, ha, hactive⟩
    · cases he
    · cases he
      exact ht account ha hactive p token purpose id due hp

theorem ResetInv.reachable {w : ResetWorld π}
    (hr : Reachable ResetStart (ResetRun config crypto verify) w) :
    ResetInv w ∧ ∀ p, (w.phase p).Checked verify := by
  refine hr.invariant (I := fun w => ResetInv w ∧ ∀ p, (w.phase p).Checked verify) ?_ ?_
  · intro w h0
    refine ⟨.start h0, fun p => ?_⟩
    rw [h0.phase p]
    trivial
  · rintro w w' ⟨h, hchecked⟩ ⟨p, event, hs⟩
    refine ⟨h.step hs, fun q => ?_⟩
    by_cases hq : q = p
    · subst hq
      exact hs.ownPhase.checked (hchecked q)
    · rw [(hs.activeFrame h).phase q hq]
      exact hchecked q

/-- **A password reset ends old access**: old passwords and setup tokens in every run, and old
    sessions in the runs in which no password is completed in the middle of an authentication with
    one of them. -/
theorem reset_ends_old_access (config : LocalSessionConfig) (crypto : TokenCrypto)
    (verify : String → LocalCredential → Bool) :
    (∀ w : ResetWorld π, Reachable ResetStart (ResetRun config crypto verify) w →
      ∀ p event w', ResetStep config crypto verify w p event w' → ResetStepSafe verify w event) ∧
    (∀ w : ResetWorld π, Reachable ResetStart (CalmRun config crypto verify) w →
      ∀ p id w', ResetStep config crypto verify w p (.accepted id) w' →
        w.sessionSince id = some w.resets) := by
  constructor
  · intro w hr p event w' hs
    obtain ⟨h, hchecked⟩ := ResetInv.reachable hr
    exact h.stepSafe hchecked hs
  · intro w hr p id w' hs
    have hinv : ResetInv w ∧ TouchSafe w := by
      refine hr.invariant (I := fun w => ResetInv w ∧ TouchSafe w) ?_ ?_
      · intro w h0
        refine ⟨.start h0, fun account _ _ q token purpose id due hq => ?_⟩
        rw [h0.phase q] at hq
        cases hq
      · rintro w w' ⟨h, ht⟩ ⟨p, event, hs, hcalm⟩
        exact ⟨h.step hs, ht.step h hs hcalm⟩
    exact hinv.2.accepted hs

theorem run_of_calm {w : ResetWorld π}
    (h : Reachable ResetStart (CalmRun config crypto verify) w) :
    Reachable ResetStart (ResetRun config crypto verify) w :=
  h.invariant (fun _ h0 => .start h0) fun _ _ ih ⟨p, event, hs, _⟩ => ih.next ⟨p, event, hs⟩

/-- A step that completes no password. -/
theorem calmly (h : Reachable ResetStart (CalmRun config crypto verify) w) (p : π)
    (hs : ResetStep config crypto verify w p .quiet w') :
    Reachable ResetStart (CalmRun config crypto verify) w' :=
  h.next ⟨p, .quiet, hs, nofun⟩

end Steps

/-- A request that has touched a full session, whose token is not due, is accepted. -/
theorem accepted_of_touched [DecidableEq π] {token : String}
    (hp : w.phase p = .touched token .request id false false)
    (ha : w.account.committed = some ⟨.ACTIVE, true⟩) :
    ResetStep config crypto verify w p (.accepted id) (w.goto p .ended) :=
  .authenticate (.allow token .request id false false ⟨.ACTIVE, true⟩ hp ha rfl)

/-! ## 6. A session that is accepted, before and after a reset -/

/-- Passwords are compared as they are. -/
def plainPasswords (password : String) (credential : LocalCredential) : Bool :=
  password = credential.passwordHash

def plainCredential (password : String) : LocalCredential := ⟨"scrypt", 1, 16384, 8, 1, 32, "", password⟩

/-- An active account with a password, and nothing else. -/
def activeAccount : ResetWorld Nat where
  account := ⟨some ⟨.ACTIVE, true⟩, none⟩
  credential := ⟨some (plainCredential "old"), none⟩
  tokens _ := ⟨none, none⟩
  sessions _ := ⟨none, none⟩
  resetLock := none
  phase _ := .idle
  resets := 0
  sessionSince _ := none
  credentialSince credential := if credential = plainCredential "old" then some 0 else none
  tokenSince _ := none
  acceptedTokens := []

theorem activeAccount_start : ResetStart activeAccount where
  account := rfl
  credential := rfl
  tokens _ := rfl
  sessions _ := rfl
  phase _ := rfl
  resets := rfl
  sessionSince _ := rfl
  credentialSince credential := by
    simp only [activeAccount, Option.some.injEq]
    exact if_congr eq_comm rfl rfl
  tokenSince _ := rfl
  acceptedTokens := rfl

/-- The sessions of a setup and of its completion. -/
def setupToken : SessionToken := { firstToken with sessionId := "1b9f8a52-6c1d-4e3f-9a7b-1c2d3e4f5a6b" }

def completedToken : SessionToken := { firstToken with sessionId := "2b9f8a52-6c1d-4e3f-9a7b-1c2d3e4f5a6b" }

theorem issueSession_id (config : LocalSessionConfig) (crypto : TokenCrypto) (token : SessionToken)
    (setup : Bool) (clock clock' : Nat) :
    (issueSession config crypto token setup clock clock').id = token.sessionId := rfl

/-- Two sessions are all that was open. -/
theorem done_of_others {pending : String → Bool} {a b : String}
    (h : ∀ id, id ≠ a → id ≠ b → pending id = false) (id : String) :
    update (update pending a false) b false id = false := by
  by_cases hb : id = b
  · rw [hb]
    exact update_self ..
  · rw [update_of_ne hb]
    by_cases ha : id = a
    · rw [ha]
      exact update_self ..
    · rw [update_of_ne ha]
      exact h id ha hb

/-- A login (0) commits between the revocations and the commit of a reset (1), which leaves its
    session open; the setup (3) and its completion (4) follow. A request (2) presents the session
    of the completion after it, or touches the old one in the middle of it. -/
theorem requests_after_reset :
    (∃ w : ResetWorld Nat,
      Reachable ResetStart (CalmRun defaultLifetimes plainTokens plainPasswords) w ∧
      (∃ w', ResetStep defaultLifetimes plainTokens plainPasswords w 2
        (.accepted completedToken.sessionId) w') ∧ w.resets = 1) ∧
    ∃ w : ResetWorld Nat,
      Reachable ResetStart (ResetRun defaultLifetimes plainTokens plainPasswords) w ∧
      (∃ w', ResetStep defaultLifetimes plainTokens plainPasswords w 2
        (.accepted firstToken.sessionId) w') ∧
      w.sessionSince firstToken.sessionId = some 0 ∧ w.resets = 1 := by
  have h0 : Reachable ResetStart (CalmRun defaultLifetimes plainTokens plainPasswords) activeAccount :=
    .start activeAccount_start
  have h1 := calmly h0 0 <| .login (.find "old" ⟨.ACTIVE, true⟩ rfl rfl)
  have h2 := calmly h1 0 <| .login (.verify "old" _ (plainCredential "old") rfl rfl rfl rfl)
  have h3 := calmly h2 1 <| .resetPassword (.start rfl)
  have h4 := calmly h3 1 <| .resetPassword (.lock rfl rfl)
  have h5 := calmly h4 1 <| .resetPassword (.check ⟨.ACTIVE, true⟩ rfl rfl rfl)
  have h6 := calmly h5 1 <| .resetPassword (.snapshotTokens rfl)
  have h7 := calmly h6 1 <| .resetPassword (.snapshotSessions _ rfl fun _ => rfl)
  have h8 := calmly h7 0 <| .login (.start "old" _ rfl)
  have h9 := calmly h8 0 <| .login (.lockCredential "old" _ (plainCredential "old") _ rfl nofun rfl)
  have h10 := calmly h9 0 <| .login (.lockAccount "old" _ ⟨.ACTIVE, true⟩ _ rfl nofun rfl)
  have h11 := calmly h10 0 <| .login (.insert "old" _ ⟨.ACTIVE, true⟩ _ firstToken 0 0 rfl rfl rfl rfl
    ⟨rfl, rfl, rfl⟩)
  have h12 := h11.next ⟨0, _, .login (.commit "old" _ firstToken.sessionId rfl), nofun⟩
  have h13 := calmly h12 1 <| .resetPassword (.createSetupToken _ "setup" 10 rfl (fun _ => rfl) rfl rfl)
  have h14 := calmly h13 1 <| .resetPassword (.update "setup" ⟨.ACTIVE, true⟩ rfl nofun rfl)
  have h15 := h14.next ⟨1, _, .resetPassword (.commit "setup" rfl
    fun q => match q with | 0 => nofun | 1 => nofun | _ + 2 => nofun), nofun⟩
  -- the reset is committed, and the old session was not revoked
  have h18 := calmly h15 3 <| .accept (.start "setup" rfl)
  have h19 := calmly h18 3 <| .accept (.find "setup" _ ⟨false, false, 10⟩ ⟨.INVITED, true⟩ 0 rfl rfl rfl
    (by decide) rfl rfl)
  have h20 := calmly h19 3 <| .accept (.lockToken "setup" _ ⟨false, false, 10⟩ rfl nofun rfl)
  have h21 := calmly h20 3 <| .accept (.lockAccount "setup" _ ⟨false, false, 10⟩ ⟨.INVITED, true⟩ 0 rfl
    nofun rfl rfl rfl rfl (by decide))
  have h22 := calmly h21 3 <| .accept (.use "setup" _ ⟨false, false, 10⟩ rfl rfl rfl)
  have h23 := calmly h22 3 <| .accept (.update "setup" _ ⟨.INVITED, true⟩ rfl
    (fun _ _ h => by cases h; rfl) rfl)
  have h24 := calmly h23 3 <| .accept (.insert "setup" _ setupToken 0 0 rfl ⟨rfl, rfl, rfl⟩)
  have h25 := h24.next ⟨3, _, .accept (.commit "setup" _ rfl), nofun⟩
  have hcomplete : (issueSession defaultLifetimes plainTokens setupToken true 0 0).mayComplete 0 = true := by
    decide +kernel
  have h26 := calmly h25 4 <| .complete (.hash setupToken.sessionId _ (plainCredential "new") rfl rfl
    rfl)
  have h27 := calmly h26 4 <| .complete (.start _ _ rfl)
  have h28 := calmly h27 4 <| .complete (.find _ _ _ _ ⟨.VERIFIED_PENDING_PASSWORD, true⟩ 0 rfl rfl
    hcomplete rfl rfl)
  have h29 := calmly h28 4 <| .complete (.lockSession _ _ _ _ rfl nofun rfl)
  have h30 := calmly h29 4 <| .complete (.lockAccount _ _ _ _ ⟨.VERIFIED_PENDING_PASSWORD, true⟩ 0 rfl
    nofun rfl rfl rfl hcomplete)
  have h31 := calmly h30 4 <| .complete (.store _ _ rfl nofun)
  have h32 := calmly h31 4 <| .complete (.update _ _ ⟨.VERIFIED_PENDING_PASSWORD, true⟩ rfl
    (fun _ _ h => by cases h; rfl) rfl)
  have h33 := calmly h32 4 <| .complete (.snapshot _ _ rfl)
  constructor
  · have h34 := calmly h33 4 <| .complete (.revoke _ _ _ firstToken.sessionId _ rfl (by decide +kernel)
      nofun rfl rfl)
    have h35 := calmly h34 4 <| .complete (.revoke _ _ _ setupToken.sessionId _ rfl (by decide +kernel)
      (fun _ _ h => by cases h; rfl) rfl rfl)
    have h36 := calmly h35 4 <| .complete (.insert _ _ _ completedToken 0 0 rfl (done_of_others fun id hfirst hsetup => by
      simp only [ResetWorld.unrevoked, ResetWorld.goto, ResetWorld.writeSession, ResetWorld.writeAccount,
        ResetWorld.writeCredential, ResetWorld.commit, ResetWorld.writeToken, ResetWorld.insertSession,
        ResetWorld.commitReset, issueSession_id, update_of_ne hfirst, update_of_ne hsetup]
      rfl) ⟨rfl, rfl, rfl⟩)
    have h37 := h36.next ⟨4, _, .complete (.commit _ _ rfl), fun _ q token purpose id due hq => by
      rcases q with _ | _ | _ | _ | _ | q <;> cases hq⟩
    have haccepts' : (issueSession defaultLifetimes plainTokens completedToken false 0 0).accepts
        (tokenHash plainTokens (completedToken.text plainTokens)) .request 0 = true := by decide +kernel
    have h38 := calmly h37 2 <| .authenticate (.present (completedToken.text plainTokens) .request rfl)
    have h39 := calmly h38 2 <| .authenticate (.touch _ _ completedToken.sessionId _ 0 0 rfl rfl rfl haccepts')
    exact ⟨_, h39, ⟨_, accepted_of_touched rfl rfl⟩, rfl⟩
  · have haccepts : (issueSession defaultLifetimes plainTokens firstToken false 0 0).accepts
        (tokenHash plainTokens (firstToken.text plainTokens)) .request 0 = true := by decide +kernel
    have g1 := (run_of_calm h33).next ⟨2, _, .authenticate (.present (firstToken.text plainTokens) .request rfl)⟩
    have g2 := g1.next ⟨2, _, .authenticate (.touch _ _ firstToken.sessionId _ 0 0 rfl rfl rfl haccepts)⟩
    have g3 := g2.next ⟨4, _, .complete (.revoke _ _ _ firstToken.sessionId _ rfl (by decide +kernel)
      (fun _ _ h => by cases h) rfl (touchRow_revoked ..))⟩
    have g4 := g3.next ⟨4, _, .complete (.revoke _ _ _ setupToken.sessionId _ rfl (by decide +kernel)
      (fun _ _ h => by cases h; rfl) rfl rfl)⟩
    have g5 := g4.next ⟨4, _, .complete (.insert _ _ _ completedToken 0 0 rfl (done_of_others fun id hfirst hsetup => by
      simp only [ResetWorld.unrevoked, ResetWorld.goto, ResetWorld.writeSession, ResetWorld.writeAccount,
        ResetWorld.writeCredential, ResetWorld.commit, ResetWorld.writeToken, ResetWorld.insertSession,
        ResetWorld.commitReset, issueSession_id, update_of_ne hfirst, update_of_ne hsetup]
      rfl) ⟨rfl, rfl, rfl⟩)⟩
    have g6 := g5.next ⟨4, _, .complete (.commit _ _ rfl)⟩
    exact ⟨_, g6, ⟨_, accepted_of_touched rfl rfl⟩, rfl, rfl⟩

/-- After a reset, its setup and its completion a request is accepted with the new session. -/
theorem reset_ends_old_access_completed :
    ∃ w : ResetWorld Nat,
      Reachable ResetStart (CalmRun defaultLifetimes plainTokens plainPasswords) w ∧
      (∃ w', ResetStep defaultLifetimes plainTokens plainPasswords w 2
        (.accepted completedToken.sessionId) w') ∧
      w.sessionSince completedToken.sessionId = some w.resets ∧ w.resets = 1 := by
  obtain ⟨⟨w, hr, ⟨w', hs⟩, hresets⟩, -⟩ := requests_after_reset
  exact ⟨w, hr, ⟨w', hs⟩,
    (reset_ends_old_access defaultLifetimes plainTokens plainPasswords).2 w hr 2 _ w' hs, hresets⟩

/-- **An old session can be accepted.** -/
theorem old_session_accepted :
    ∃ w : ResetWorld Nat,
      Reachable ResetStart (ResetRun defaultLifetimes plainTokens plainPasswords) w ∧
      (∃ w', ResetStep defaultLifetimes plainTokens plainPasswords w 2
        (.accepted firstToken.sessionId) w') ∧
      w.sessionSince firstToken.sessionId = some 0 ∧ w.resets = 1 :=
  requests_after_reset.2

end AdsManagement.Auth
