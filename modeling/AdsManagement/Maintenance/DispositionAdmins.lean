/-
  File:      Maintenance/DispositionAdmins.lean
  Subject:   A DISPOSITION AND THE LAST SUPER ADMINISTRATOR: which transactions of a run can leave
             the table without an enabled super administrator.

  The history of a run is a chain of transactions. `applyAtomic` counts before it takes a super
  administrator out, a claim writes neither the role nor the flag, and a bootstrap leaves one;
  `finalizeReinvite` writes both as the entry desires them and counts nobody.

  * `Commit.Effect` -- what a transaction does to the super administrators;
  * `AdminHistory` -- a chain of such transactions, which every run is;
  * `super_admin_remains_iff` -- in every run, over what its finalizations find; where the client
    does not read the answer of a lock, no transaction is committed at all;
  * `last_super_admin_reinvited` -- the only super administrator, invited again as a USER.
-/
import AdsManagement.Maintenance.DispositionSteps

namespace AdsManagement.Maintenance

open Common Lib List
open Users (AppRole InviteStatus)

/-! ## 1. One transaction -/

/-- At least one enabled super administrator. -/
def HasSuperAdmin (users : AppUsers) : Prop := ∃ row ∈ users.rows, isEnabledSuperAdmin row = true

/-- The entry makes one, or there is one beside its user. -/
def LeavesSuperAdmin (entry : AuthDispositionEntry) (users : AppUsers) : Prop :=
  (entry.desiredRole = .SUPER_ADMIN ∧ entry.desiredActive = true) ∨
    ∃ row ∈ users.rows, isEnabledSuperAdmin row = true ∧ entry.appUserId ≠ some row.id

/-- **What a transaction does**: a finalization keeps a super administrator exactly where its entry
    leaves one, every other transaction keeps one. -/
def Commit.Effect (c : Commit) : Prop :=
  HasSuperAdmin c.before →
    (HasSuperAdmin c.after ↔ (c.operation = .finalizeReinvite → LeavesSuperAdmin c.entry c.before))

theorem Commit.effect_of_keeps {c : Commit} (hop : c.operation ≠ .finalizeReinvite)
    (h : HasSuperAdmin c.before → HasSuperAdmin c.after) : c.Effect :=
  fun hb => ⟨fun _ hf => absurd hf hop, fun _ => h hb⟩

variable {action : AuthDispositionAction} {entry : AuthDispositionEntry} {directory : Directory}
  {outcome : StoreOutcome} {users : AppUsers}

variable {row : AppUserRow}

theorem isEnabledSuperAdmin_iff :
    isEnabledSuperAdmin row = true ↔ row.role = .SUPER_ADMIN ∧ row.isActive = true := by
  unfold isEnabledSuperAdmin
  rw [Bool.and_eq_true, decide_eq_true_eq]

/-- The count is taken unless the row is no super administrator or stays an enabled one. -/
theorem assertLastSuperAdminSafe_eq_ok {email : String}
    (h : assertLastSuperAdminSafe users (snapshotOf users row email) entry = .ok ()) :
    row.role ≠ .SUPER_ADMIN ∨ (entry.desiredRole = .SUPER_ADMIN ∧ entry.desiredActive = true) ∨
      2 ≤ users.rows.countP isEnabledSuperAdmin := by
  unfold assertLastSuperAdminSafe at h
  split at h
  · next hc => exact hc.imp_right .inl
  · split at h
    · cases h
    · next hc => exact .inr (.inr (Nat.lt_of_not_le hc))

theorem applyAtomicTx_keeps (hdisable : action = .DISABLE → entry.desiredActive = false)
    (h : applyAtomicTx action entry directory = .ok (outcome, users)) (hb : HasSuperAdmin directory.users) :
    HasSuperAdmin users := by
  rcases applyAtomicTx_eq_ok h with ⟨-, rfl, -⟩ | ⟨-, row, hrow, hsafe, hrows⟩
  · exact hb
  · have hid : (atomicRow action entry row).id = row.id := atomicRow_id row
    unfold HasSuperAdmin
    rw [hrows]
    rcases assertLastSuperAdminSafe_eq_ok hsafe with hrole | ⟨hrole, hactive⟩ | hcount
    · exact (keeps_replace directory.users.constraints.ids hrow.mem hid fun ha =>
        absurd (isEnabledSuperAdmin_iff.mp ha).1 hrole).exists hb
    · refine ⟨_, mem_replaceRow_self hrow.mem hid.symm, isEnabledSuperAdmin_iff.mpr ?_⟩
      have ha : action ≠ .DISABLE := fun ha => by
        rw [hdisable ha] at hactive
        cases hactive
      rw [atomicRow, if_neg ha]
      exact ⟨hrole, hactive⟩
    · exact (spares_replace directory.users.constraints.ids hcount hid).exists

variable {requestId : String}

theorem claimReinviteTx_keeps (h : claimReinviteTx entry requestId directory = .ok (outcome, users))
    (hb : HasSuperAdmin directory.users) : HasSuperAdmin users := by
  rcases claimReinviteTx_eq_ok h with ⟨-, rfl, -⟩ | ⟨-, row, hrow, hrows⟩
  · exact hb
  · unfold HasSuperAdmin
    rw [hrows]
    have hkeeps : Keeps AppUserRow.id isEnabledSuperAdmin directory.users.rows
        (replaceRow AppUserRow.id (claimedRow requestId row) directory.users.rows) :=
      keeps_replace directory.users.constraints.ids hrow.mem rfl fun ha => ha
    exact hkeeps.exists hb

/-- The user of the entry carries the claim. -/
def Claimed (entry : AuthDispositionEntry) (requestId : String) (users : AppUsers) : Prop :=
  ∃ row ∈ users.rows, entry.appUserId = some row.id ∧ row.normalizedEmail = some entry.normalizedEmail ∧
    row.inviteStatus = .PENDING_PROVIDER ∧ row.invitationRequestId = some requestId

/-- A claim that was written. -/
theorem claimed_of_claimReinviteTx (h : claimReinviteTx entry requestId directory = .ok (.APPLIED, users)) :
    Claimed entry requestId users := by
  rcases claimReinviteTx_eq_ok h with ⟨h, -⟩ | ⟨-, row, hrow, hrows⟩
  · cases h
  · exact ⟨claimedRow requestId row, hrows ▸ mem_replaceRow_self hrow.mem rfl, hrow.appUserId,
      hrow.normalizedEmail, rfl, rfl⟩

variable {providerUserId : String}

section

variable (hclaimed : Claimed entry requestId directory.users)
  (h : finalizeReinviteTx entry requestId providerUserId directory = .ok (outcome, users))
include hclaimed h

/-- A finalization after the claim writes the row. -/
theorem finalizeReinviteTx_of_claimed : ∃ row ∈ directory.users.rows, entry.appUserId = some row.id ∧
      row.normalizedEmail = some entry.normalizedEmail ∧
      users.rows = replaceRow AppUserRow.id (finalizedRow entry providerUserId row)
        directory.users.rows := by
  obtain ⟨claimed, hmem, hid, hemail, hstatus, -⟩ := hclaimed
  obtain ⟨row, hf, hcases⟩ := finalizeReinviteTx_eq_ok h
  rw [hid, Option.getD_some, AppUsers.findById_of_mem hmem] at hf
  cases hf
  rcases hcases with ⟨-, -, hinvited⟩ | ⟨-, -, hrows⟩
  · rw [hstatus] at hinvited
    cases hinvited
  · exact ⟨claimed, hmem, hid, hemail, hrows⟩

/-- **A finalization** leaves a super administrator exactly where its entry does. -/
theorem finalizeReinviteTx_effect : HasSuperAdmin users ↔ LeavesSuperAdmin entry directory.users := by
  obtain ⟨row, hmem, hid, -, hrows⟩ := finalizeReinviteTx_of_claimed hclaimed h
  unfold HasSuperAdmin
  rw [hrows]
  constructor
  · rintro ⟨after, hafter, hadmin⟩
    obtain ⟨before, hbefore, rfl⟩ := mem_map.mp hafter
    by_cases he : before.id = (finalizedRow entry providerUserId row).id
    · rw [if_pos he] at hadmin
      exact .inl (isEnabledSuperAdmin_iff.mp hadmin)
    · rw [if_neg he] at hadmin
      refine .inr ⟨before, hbefore, hadmin, fun hb => he ?_⟩
      exact Option.some.inj (hb.symm.trans hid)
  · rintro (hdesired | ⟨other, hother, hadmin, hne⟩)
    · exact ⟨_, mem_replaceRow_self hmem rfl, isEnabledSuperAdmin_iff.mpr hdesired⟩
    · exact ⟨other, mem_replaceRow_of_ne hother fun he => hne (hid.trans (congrArg some he.symm)), hadmin⟩

end

/-! ## 2. A history -/

/-- Each transaction starts from the table that the one before has left. -/
def Chained : AppUsers → List Commit → AppUsers → Prop
  | users, [], users' => users' = users
  | users, c :: rest, users' => c.before = users ∧ Chained c.after rest users'

theorem Chained.append {u v : AppUsers} {cs cs' : List Commit} {x : AppUsers} (h : Chained u cs v)
    (h' : Chained v cs' x) : Chained u (cs ++ cs') x := by
  induction cs generalizing u with
  | nil =>
    cases h
    exact h'
  | cons c rest ih => exact ⟨h.1, ih h.2⟩

/-- The history goes on with transactions that have the effect. -/
def AdminHistory (w w' : DispositionWorld) : Prop :=
  ∃ commits, w'.commits = w.commits ++ commits ∧
    Chained w.directory.users commits w'.directory.users ∧ ∀ c ∈ commits, c.Effect

instance : IsPreorder DispositionWorld AdminHistory where
  refl w := ⟨[], (append_nil _).symm, rfl, fun _ h => nomatch h⟩
  trans := by
    rintro u v w ⟨cs, hv, hc, he⟩ ⟨cs', hw, hc', he'⟩
    refine ⟨cs ++ cs', by rw [hw, hv, append_assoc], hc.append hc', fun c h => ?_⟩
    exact (mem_append.mp h).elim (he c) (he' c)

theorem AdminHistory.of_same {w w' : DispositionWorld} (hc : w'.commits = w.commits)
    (hu : w'.directory.users = w.directory.users) : AdminHistory w w' :=
  ⟨[], by rw [hc, append_nil], hu, fun _ h => nomatch h⟩

theorem AdminHistory.of_commit {operation : StoreOperation} {w : DispositionWorld}
    (h : Commit.Effect ⟨operation, entry, w.directory.users, users⟩) :
    AdminHistory w (w.commit operation entry users) :=
  ⟨[⟨operation, entry, w.directory.users, users⟩], rfl, ⟨rfl, rfl⟩, fun _ hc => mem_singleton.mp hc ▸ h⟩

variable {deps : AuthDispositionDependencies} {command : AuthAtomicCommand} {plan : AuthDispositionPlan}

theorem history_request {α : Type} (operation : Identities → Except String α × Identities) :
    Moves AdminHistory (request operation) :=
  moves_request fun _ _ _ => .of_same rfl rfl

theorem history_recordPartial (state : PartialState) (compensation : Compensation) (code : String) :
    Moves AdminHistory (recordPartial command plan state compensation code) :=
  moves_recordPartial (fun _ _ => .of_same rfl rfl) command plan state compensation code

theorem history_applyAtomic (hvalid : command.action = .DISABLE → command.entry.desiredActive = false) :
    Moves AdminHistory (applyAtomic deps command) := by
  refine Moves.ite (moves_throw _) (moves_transaction fun _ w outcome users h => .of_commit ?_)
  exact Commit.effect_of_keeps nofun fun hb => applyAtomicTx_keeps hvalid h hb

theorem history_claimReinvite : Moves AdminHistory (claimReinvite deps command) := by
  refine Moves.ite (moves_throw _) (moves_transaction fun _ w outcome users h => .of_commit ?_)
  exact Commit.effect_of_keeps nofun fun hb => claimReinviteTx_keeps h hb

theorem history_applyBootstrap (service : BootstrapService) :
    Moves AdminHistory (applyBootstrap deps service command) := by
  refine Moves.ite (moves_throw _) (moves_transaction fun _ w outcome users h => .of_commit ?_)
  exact Commit.effect_of_keeps nofun fun _ => runBootstrapTx_eq_ok h

theorem history_applyDisable (hvalid : command.action = .DISABLE → command.entry.desiredActive = false) :
    Moves AdminHistory (applyDisable deps command plan) := by
  refine (moves_storeMutation (history_applyAtomic hvalid) _).bind fun dbOutcome => ?_
  refine Moves.ite (moves_pure _) ?_
  split
  · exact moves_throw _
  · exact ((history_request _).bind fun _ => moves_pure _).tryCatch fun _ =>
      (history_recordPartial _ _ _).bind fun _ => moves_pure _

variable {w : Remote String DispositionWorld}

theorem history_finishReinvite {invite : ProviderInviteReceipt}
    (hclaimed : Claimed command.entry (deps.operationUuid command.operationId) w.state.directory.users) :
    MovesAt AdminHistory (finishReinvite deps command plan invite) w := by
  have hfinalize : MovesAt AdminHistory (finalizeReinvite deps command invite.userId) w := by
    refine movesAt_call ?_
    split
    · exact refl_of AdminHistory _
    · next outcome users h =>
      obtain ⟨_, -, h⟩ := bind_eq_ok.mp h
      exact .of_commit fun _ =>
        ⟨fun ha _ => (finalizeReinviteTx_effect hclaimed h).mp ha, fun hl =>
          (finalizeReinviteTx_effect hclaimed h).mpr (hl rfl)⟩
  have hstored : MovesAt AdminHistory (storeMutation (finalizeReinvite deps command invite.userId)
      "AUTH_STORE_REINVITE_FINALIZE_FAILED") w :=
    (hfinalize.tryCatch fun _ v _ => moves_throw _ v).bind fun _ v _ => moves_pure _ v
  have hremove : Moves AdminHistory (compensateInvite deps command invite) :=
    ((history_request _).bind fun _ => moves_pure _).tryCatch fun _ => moves_pure _
  refine (hstored.bind fun _ v _ => moves_pure _ v).tryCatch fun _ v _ => ?_
  exact (hremove.bind fun _ => (history_recordPartial _ _ _).bind fun _ => moves_pure _) v

/-- A claim that was counted as applied. -/
theorem claimed_of_storeMutation {w' : Remote String DispositionWorld} {code : String}
    {counted : DispositionOutcome}
    (h : exec (storeMutation (claimReinvite deps command) code) w = (.ok counted, w'))
    (hc : counted ≠ .unchanged) :
    Claimed command.entry (deps.operationUuid command.operationId) w'.state.directory.users := by
  obtain ⟨outcome, ho, rfl⟩ := storeMutation_eq_ok h
  cases outcome with
  | UNCHANGED => exact absurd rfl hc
  | APPLIED =>
    unfold claimReinvite at ho
    split at ho
    · cases ho
    · obtain ⟨users, hb, hs⟩ := transaction_eq_ok ho
      rw [hs]
      exact claimed_of_claimReinviteTx hb

/-- An invitation does not touch the table. -/
def SameUsers (w w' : DispositionWorld) : Prop := w'.directory.users = w.directory.users

instance : IsPreorder DispositionWorld SameUsers where
  refl _ := rfl
  trans _ _ _ h h' := h'.trans h

theorem sameUsers_tryInvite : Moves SameUsers (tryInvite deps command) :=
  ((moves_request fun _ _ _ => rfl).bind fun _ => moves_pure _).tryCatch fun _ => moves_pure _

theorem history_applyReinvite : Moves AdminHistory (applyReinvite deps command plan) := by
  intro w
  refine MovesAt.bind (moves_storeMutation history_claimReinvite _ w) fun claim v hclaim => ?_
  refine MovesAt.ite (fun _ => moves_pure _ v) fun hc => ?_
  have hclaimed := claimed_of_storeMutation hclaim hc
  have hinvite : Moves AdminHistory (tryInvite deps command) :=
    ((history_request _).bind fun _ => moves_pure _).tryCatch fun _ => moves_pure _
  refine (hinvite v).bind fun invite u hu => ?_
  cases invite with
  | none => exact ((history_recordPartial _ _ _).bind fun _ => moves_pure _) u
  | some invite =>
    have hsame : SameUsers v.state u.state := by
      have h : SameUsers v.state (exec (tryInvite deps command) v).2.state := sameUsers_tryInvite v
      rwa [hu] at h
    exact history_finishReinvite (hsame ▸ hclaimed)

/-- **Every turn** goes on with the history. -/
theorem history_applyEntry {input : AuthDispositionInput} (hvalid : ValidInput input)
    (plannedEntry : AuthDispositionPlanEntry) :
    Moves AdminHistory (applyEntry deps input plan plannedEntry) := by
  refine Moves.ite (moves_pure _) ?_
  split
  · exact moves_throw _
  · rename_i entry hf
    have hdisable := (hvalid.entries entry (mem_of_find?_eq_some hf)).disable
    split
    · split
      · exact moves_throw _
      · exact moves_storeMutation (history_applyBootstrap _) _
    · exact moves_storeMutation (history_applyAtomic hdisable) _
    · exact history_applyReinvite
    · exact history_applyDisable hdisable
    · exact moves_pure _

/-- **A run** leaves a chain of transactions. -/
theorem history_applyAuthDisposition (input : AuthDispositionInput)
    (confirmation : AuthDispositionApplyConfirmation) (expectedPlan : AuthDispositionPlan) :
    Moves AdminHistory (applyAuthDisposition deps input confirmation expectedPlan) :=
  moves_applyAuthDisposition (fun hvalid _ plannedEntry => history_applyEntry hvalid plannedEntry)
    (fun _ _ => .of_same rfl rfl) confirmation expectedPlan

/-! ## 3. Every run -/

/-- Along a chain that starts with a super administrator. -/
theorem Chained.superAdmin_iff {commits : List Commit} {users users' : AppUsers}
    (hchain : Chained users commits users') (heffect : ∀ c ∈ commits, c.Effect) (hstart : HasSuperAdmin users) :
    (∀ c ∈ commits, HasSuperAdmin c.after) ↔
      ∀ c ∈ commits, c.operation = .finalizeReinvite → LeavesSuperAdmin c.entry c.before := by
  induction commits generalizing users with
  | nil => exact ⟨fun _ _ h => (nomatch h), fun _ _ h => (nomatch h)⟩
  | cons c rest ih =>
    obtain ⟨rfl, hrest⟩ := hchain
    have hc := heffect c mem_cons_self hstart
    rw [forall_mem_cons, forall_mem_cons, ← hc]
    exact and_congr_right fun ha => ih hrest (fun d hd => heffect d (mem_cons_of_mem _ hd)) ha

/-- A run whose client does not read the answer of a lock commits nothing. -/
def SameCommits (w w' : DispositionWorld) : Prop := w'.commits = w.commits

instance : IsPreorder DispositionWorld SameCommits where
  refl _ := rfl
  trans _ _ _ h h' := h'.trans h

theorem sameCommits_of_refused (hvoid : ¬ deps.ReadsVoid) (input : AuthDispositionInput)
    (confirmation : AuthDispositionApplyConfirmation) (expectedPlan : AuthDispositionPlan) :
    Moves SameCommits (applyAuthDisposition deps input confirmation expectedPlan) :=
  moves_applyAuthDisposition (fun _ refreshed plannedEntry =>
    moves_applyEntry (fun h => absurd h hvoid) (fun _ _ => rfl) (fun _ _ => rfl) input refreshed plannedEntry)
    (fun _ _ => rfl) confirmation expectedPlan

/-- **A super administrator remains** after every transaction of a run exactly where each
    finalization makes one or finds one beside its user; and no transaction is committed where the
    client does not read the answer of a lock. -/
theorem super_admin_remains_iff (deps : AuthDispositionDependencies) (input : AuthDispositionInput)
    (confirmation : AuthDispositionApplyConfirmation) (expectedPlan : AuthDispositionPlan)
    (w : Remote String DispositionWorld) (hstart : HasSuperAdmin w.state.directory.users)
    (hnew : w.state.commits = []) :
    let w' := (exec (applyAuthDisposition deps input confirmation expectedPlan) w).2
    ((∀ c ∈ w'.state.commits, HasSuperAdmin c.after) ↔
      ∀ c ∈ w'.state.commits, c.operation = .finalizeReinvite → LeavesSuperAdmin c.entry c.before) ∧
    (¬ deps.ReadsVoid → w'.state.commits = []) := by
  intro w'
  refine ⟨?_, fun hvoid => (sameCommits_of_refused hvoid input confirmation expectedPlan w).trans hnew⟩
  obtain ⟨commits, hc, hchain, heffect⟩ :
      AdminHistory w.state w'.state := history_applyAuthDisposition input confirmation expectedPlan w
  rw [hc, hnew]
  exact hchain.superAdmin_iff heffect hstart

/-! ### The last one, invited again -/

/-- Digests that keep what they digest. -/
def plainDependencies : AuthDispositionDependencies where
  projectRef := "abcdefghijklmnopqrst"
  keyId := "binding-key-1"
  canonicalSha256 body := body.manifestId ++ body.targetSha256 ++ body.manifestBinding.value ++
    String.join (body.entries.map fun entry => entry.entryId ++ entry.action.text ++ entry.code)
  bindManifest input := input.manifestId ++ String.join (input.entries.map (·.entryId))
  bindEntry manifest entry target := manifest ++ entry.entryId ++ target
  operationUuid operationId := "uuid " ++ operationId
  inviteOwnershipValue key := "owner " ++ key
  bootstrapSuperAdmin := none
  voidColumn := .ok ()

def demotion : AuthDispositionInput where
  manifestId := "manifest-0001"
  target := ⟨"abcdefghijklmnopqrst", "0a1b2c", "9f8e7d"⟩
  entries :=
    [{ entryId := "entry-0001"
       action := .RE_INVITE
       appUserId := some "a1111111-1111-4111-8111-111111111111"
       normalizedEmail := "kim@example.com"
       providerUserId := none
       expectedLinkedProviderUserId := none
       expectedAuthzVersion := some 1
       desiredRole := .USER
       desiredActive := true }]

def demotionPlan : AuthDispositionPlan :=
  dispositionPlan plainDependencies demotion [⟨"entry-0001", .RE_INVITE, .READY, "AUTH_REINVITE_READY"⟩]

/-- The one super administrator, who has no identity yet. -/
def kim : AppUserRow where
  id := "a1111111-1111-4111-8111-111111111111"
  email := some "kim@example.com"
  normalizedEmail := some "kim@example.com"
  role := .SUPER_ADMIN
  isActive := true
  inviteStatus := .ACTIVE
  authUserId := none
  invitationRequestId := none
  authzVersion := 1

def onlyKim : Remote String DispositionWorld where
  state :=
    { directory :=
        { users := ⟨[kim], by decide +kernel⟩
          identities := ⟨[], nodup_nil, ["b2222222-2222-4222-8222-222222222222"]⟩ }
      journal := []
      commits := []
      reports := [] }
  fates := []

instance (users : AppUsers) : Decidable (HasSuperAdmin users) :=
  inferInstanceAs (Decidable (∃ row ∈ users.rows, isEnabledSuperAdmin row = true))

theorem super_admin_remains_iff_kim :
    HasSuperAdmin onlyKim.state.directory.users ∧ onlyKim.state.commits = [] ∧
      let w' := (exec (applyAuthDisposition plainDependencies demotion
        (confirmationOf .RE_INVITE demotionPlan) demotionPlan) onlyKim).2
      ((∀ c ∈ w'.state.commits, HasSuperAdmin c.after) ↔
        ∀ c ∈ w'.state.commits, c.operation = .finalizeReinvite → LeavesSuperAdmin c.entry c.before) ∧
      (¬ plainDependencies.ReadsVoid → w'.state.commits = []) :=
  have hstart : HasSuperAdmin onlyKim.state.directory.users := by decide
  ⟨hstart, rfl, super_admin_remains_iff plainDependencies demotion
    (confirmationOf .RE_INVITE demotionPlan) demotionPlan onlyKim hstart rfl⟩

/-- The only super administrator is invited again as a USER: the second transaction leaves none. -/
theorem last_super_admin_reinvited :
    ¬ ∀ (deps : AuthDispositionDependencies) (input : AuthDispositionInput)
      (confirmation : AuthDispositionApplyConfirmation) (expectedPlan : AuthDispositionPlan)
      (w : Remote String DispositionWorld), deps.ReadsVoid → HasSuperAdmin w.state.directory.users →
        w.state.commits = [] → ∀ c ∈ (exec (applyAuthDisposition deps input confirmation expectedPlan) w).2.state.commits,
          HasSuperAdmin c.after := by
  intro h
  have hall := h plainDependencies demotion (confirmationOf .RE_INVITE demotionPlan) demotionPlan onlyKim
    rfl (by decide) rfl
  revert hall
  decide +kernel

end AdsManagement.Maintenance
