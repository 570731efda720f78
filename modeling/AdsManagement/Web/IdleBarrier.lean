/-
  File:      Web/IdleBarrier.lean
  Subject:   WHEN THE IDLE BARRIER HOLDS, and the two ways past it.

  The duty to revalidate is a flag of each tab, set only when that tab looks while the stamp is
  old. Whoever renews the stamp first takes that chance from the tabs that have not looked; and a
  request that awaits a revalidation does not look again when it goes on.

  * `Clocked`, `Inv` -- what the stamps and the flags say about the real history;
  * `Looks`, `check_false`, `input_cases`, ... -- one lemma for each function of a tab;
  * `Meets`, `Inv.step`, `barrier_run` -- the barrier in every run under the two conditions;
  * `sleeping_tab_passes` -- a tab that slept passes after another one has become active.
-/
import Mathlib.Data.Fintype.Basic
import AdsManagement.Lib.Runs
import AdsManagement.Web.SessionActivity

namespace AdsManagement.Web.SessionActivity

open Lib Function

variable {τ : Type}

/-! ## 1. The condition -/

/-- How long ago the last input was, as a tab sees it. -/
def State.age (s : State τ) (t : τ) : Int := s.now - (s.tab t).latest s.storage s.now

/-- The other tabs that owe a revalidation and still see the stamp old have raised their flags. -/
def OthersMarked (s : State τ) (t : τ) : Prop :=
  ∀ u, u ≠ t → (s.tab u).watch.isSome = true → s.history.owes u = true → pollingIdleMs ≤ s.age u →
    (s.tab u).needsValidation = true

/-- The test that `input` makes before it renews the stamp. -/
def State.accepts (s : State τ) (t : τ) : Prop :=
  (s.tab t).watch.any (!·.ended) = true ∧ s.age t < sessionIdleMs

/-- No renewal hides an old stamp from a tab that has not looked at it, and no revalidation that
    requests await succeeds after the session is over. -/
def Condition (s : State τ) (t : τ) : Action → Prop
  | .resetUserActivity => OthersMarked s t
  | .input => s.accepts t → OthersMarked s t
  | .revalidated true =>
    (s.tab t).watch.isSome = true → (s.tab t).validation.any (decide <| 0 < ·.waiting) = true →
      s.age t < sessionIdleMs
  | _ => True

/-- Every step of the run meets the condition. -/
def Meets [DecidableEq τ] (s : State τ) : List (Event τ) → Prop
  | [] => True
  | e :: events => Condition (s.elapse e.delay) e.tab e.action ∧ Meets (step s e) events

instance [Fintype τ] [DecidableEq τ] (s : State τ) (t : τ) : Decidable (OthersMarked s t) :=
  inferInstanceAs (Decidable (∀ _, _ → _ → _ → _ → _))

instance (s : State τ) (t : τ) : Decidable (s.accepts t) := inferInstanceAs (Decidable (_ ∧ _))

instance [Fintype τ] [DecidableEq τ] (s : State τ) (t : τ) :
    (action : Action) → Decidable (Condition s t action)
  | .resetUserActivity => inferInstanceAs (Decidable (OthersMarked s t))
  | .input => inferInstanceAs (Decidable (s.accepts t → OthersMarked s t))
  | .revalidated true => inferInstanceAs (Decidable (_ = true → _ = true → _ < sessionIdleMs))
  | .revalidated false => .isTrue trivial
  | .setActivityRevalidator _ => .isTrue trivial
  | .watchUserActivity => .isTrue trivial
  | .focus => .isTrue trivial
  | .check => .isTrue trivial
  | .userActivityAge => .isTrue trivial
  | .ensureActivityAuthorization => .isTrue trivial

instance Meets.decidable [Fintype τ] [DecidableEq τ] :
    (s : State τ) → (events : List (Event τ)) → Decidable (Meets s events)
  | _, [] => .isTrue trivial
  | s, e :: events =>
    have : Decidable (Meets (step s e) events) := Meets.decidable (step s e) events
    inferInstanceAs (Decidable (_ ∧ Meets (step s e) events))

instance (s : State τ) : Decidable (Barrier s) := inferInstanceAs (Decidable (∀ p ∈ s.passed, _))

/-! ## 2. The invariant -/

/-- A stamp that is stored or that a tab has. -/
def State.Stamp (s : State τ) (n : Int) : Prop :=
  s.storage = some n ∨ ∃ t session, (s.tab t).current = some session ∧ session.stamp = n

/-- What the stamps say about the history: none is later than the last input. -/
structure Clocked (s : State τ) : Prop where
  positive : 0 < s.now
  past : ∀ last, s.history.lastInput = some last → last ≤ s.now
  stamped : ∀ n, s.Stamp n → 0 < n ∧ ∃ last, s.history.lastInput = some last ∧ n ≤ last
  stored : s.history.lastInput.isSome = true → s.storage.isSome = true
  expired : s.history.expired = true →
    s.history.lastInput.isSome = true ∧ ∀ n, s.Stamp n → n + sessionIdleMs ≤ s.now

structure Inv (s : State τ) : Prop extends Clocked s where
  watching : ∀ t, (s.tab t).watch.isSome = true → (s.tab t).current.isSome = true
  /-- a tab that does not watch yet has no stamp that is not stored -/
  saved : ∀ t session n, (s.tab t).watch = none → (s.tab t).current = some session →
    s.storage = some n → session.stamp ≤ n
  owing : ∀ t, (s.tab t).watch.isSome = true → s.history.owes t = true →
    (s.tab t).needsValidation = true ∨ pollingIdleMs ≤ s.age t
  barrier : Barrier s

variable {s : State τ}

theorem Clocked.le_now (h : Clocked s) {n : Int} (hn : s.Stamp n) : n ≤ s.now := by
  obtain ⟨-, last, hlast, hle⟩ := h.stamped n hn
  exact Int.le_trans hle (h.past last hlast)

/-- The stored stamp is always read. -/
theorem Clocked.read_eq (h : Clocked s) {n : Int} (hn : s.storage = some n) :
    read s.storage s.now = n := by
  rw [hn]
  exact if_pos ⟨(h.stamped n (.inl hn)).1, h.le_now (.inl hn)⟩

theorem read_none (now : Int) : read none now = 0 := rfl

variable {session : Session} {t : τ}

/-- What a look leaves in `current` is a stamp that was there. -/
theorem Clocked.stamp_max (h : Clocked s) (hc : (s.tab t).current = some session) :
    s.Stamp (max session.stamp (read s.storage s.now)) := by
  have hown : s.Stamp session.stamp := .inr ⟨t, session, hc, rfl⟩
  cases hs : s.storage with
  | none =>
    rw [read_none, Int.max_eq_left (Int.le_of_lt (h.stamped _ hown).1)]
    exact hown
  | some n =>
    rw [← hs, h.read_eq hs]
    rw [Int.max_def]
    split
    · exact .inl hs
    · exact hown

theorem latest_eq {tab : Tab} (hc : tab.current = some session) (storage : Option Int) (now : Int) :
    tab.latest storage now = max session.stamp (read storage now) := by
  unfold Tab.latest
  rw [hc]

theorem Clocked.latest_stamp (h : Clocked s) (hc : (s.tab t).current.isSome = true) :
    s.Stamp ((s.tab t).latest s.storage s.now) := by
  obtain ⟨session, hsession⟩ := Option.isSome_iff_exists.mp hc
  rw [latest_eq hsession]
  exact h.stamp_max hsession

/-- After the deadline every tab sees that it has passed. -/
theorem Clocked.age_of_expired (h : Clocked s) (hc : (s.tab t).current.isSome = true)
    (he : s.history.expired = true) :
    sessionIdleMs ≤ s.age t := by
  have := (h.expired he).2 _ (h.latest_stamp hc)
  unfold State.age
  omega

/-- No stamp is younger than the last input. -/
theorem Clocked.stamp_of_idleFor (h : Clocked s) {n ms : Int} (hn : s.Stamp n)
    (hi : s.history.idleFor s.now ms = true) : ms ≤ s.now - n := by
  obtain ⟨last, hlast, hle⟩ := Option.any_eq_true .. |>.mp hi
  obtain ⟨-, last', hlast', hstamp⟩ := h.stamped n hn
  cases hlast.symm.trans hlast'
  have := of_decide_eq_true hle
  omega

/-! ## 3. Time passes -/

section Elapse

variable (delay : Nat)

theorem Clocked.elapse (h : Clocked s) : Clocked (s.elapse delay) where
  positive := by
    have := h.positive
    show 0 < s.now + delay
    omega
  past last hlast := by
    have := h.past last hlast
    show last ≤ s.now + delay
    omega
  stamped := h.stamped
  stored := h.stored
  expired he := by
    rcases Bool.or_eq_true_iff.mp he with he | hi
    · refine ⟨(h.expired he).1, fun n hn => ?_⟩
      have := (h.expired he).2 n hn
      show n + sessionIdleMs ≤ s.now + delay
      omega
    · obtain ⟨last, hlast, hle⟩ := Option.any_eq_true .. |>.mp hi
      refine ⟨Option.isSome_iff_exists.mpr ⟨last, hlast⟩, fun n hn => ?_⟩
      obtain ⟨-, last', hlast', hstamp⟩ := h.stamped n hn
      cases hlast.symm.trans hlast'
      have := of_decide_eq_true hle
      show n + sessionIdleMs ≤ s.now + delay
      omega

/-- The stored stamp was read before as well. -/
theorem Clocked.latest_elapse (h : Clocked s) (t : τ) :
    (s.tab t).latest s.storage (s.now + delay) = (s.tab t).latest s.storage s.now := by
  have hread : read s.storage (s.now + delay) = read s.storage s.now := by
    cases hs : s.storage with
    | none => rfl
    | some n =>
      have hn := (h.elapse delay).read_eq (n := n) hs
      rw [← hs, h.read_eq hs]
      exact hn
  unfold Tab.latest
  rw [hread]

theorem Inv.elapse (h : Inv s) : Inv (s.elapse delay) where
  toClocked := h.toClocked.elapse delay
  watching := h.watching
  saved := h.saved
  owing t hw ho := by
    rcases Bool.or_eq_true_iff.mp ho with ho | hi
    · refine (h.owing t hw ho).imp id fun hage => ?_
      have e := h.latest_elapse delay t
      unfold State.age at hage ⊢
      show pollingIdleMs ≤ s.now + delay - (s.tab t).latest s.storage (s.now + delay)
      omega
    · have hclock := h.toClocked.elapse delay
      exact .inr (hclock.stamp_of_idleFor (hclock.latest_stamp (h.watching t hw)) hi)
  barrier := h.barrier

end Elapse

/-! ## 4. What the functions of a tab do -/

/-- A step of a tab that at most looks at the stamp of the others. -/
structure Looks (tab tab' : Tab) (storage : Option Int) (now : Int) : Prop where
  current : tab'.current = tab.current ∨ tab'.current = (tab.look storage now).current
  watch : tab'.watch.isSome = tab.watch.isSome

section Functions

variable {tab : Tab} {storage : Option Int} {now : Int}

theorem look_current (hc : tab.current = some session) :
    (tab.look storage now).current =
      some { session with stamp := max session.stamp (read storage now) } := by
  unfold Tab.look
  rw [hc]
  rfl

theorem latest_look : (tab.look storage now).latest storage now = tab.latest storage now := by
  cases hc : tab.current with
  | none =>
    unfold Tab.latest Tab.look
    rw [hc]
    rfl
  | some session =>
    rw [latest_eq (look_current hc), latest_eq hc]
    show max (max session.stamp (read storage now)) (read storage now) = _
    omega

theorem latest_congr {tab' : Tab} (h : tab'.current = tab.current) :
    tab'.latest storage now = tab.latest storage now := by
  unfold Tab.latest
  rw [h]

theorem Looks.latest {tab' : Tab} (h : Looks tab tab' storage now) :
    tab'.latest storage now = tab.latest storage now := by
  rcases h.current with e | e
  · exact latest_congr e
  · rw [latest_congr e, latest_look]

theorem Looks.refl : Looks tab tab storage now := ⟨.inl rfl, rfl⟩

theorem Looks.current_isSome {tab' : Tab} (h : Looks tab tab' storage now) :
    tab'.current.isSome = tab.current.isSome := by
  rcases h.current with e | e
  · rw [e]
  · rw [e]
    exact Option.isSome_map

/-- `check` of a tab whose session has not ended. -/
theorem check_eq (hopen : tab.watch.any (!·.ended) = true) :
    ∃ watch' effects, effects.any Effect.passes = false ∧
      check tab storage now =
        ({ tab.look storage now with
            needsValidation := tab.needsValidation ||
              decide (pollingIdleMs ≤ now - tab.latest storage now)
            watch := some watch' },
          effects, decide (sessionIdleMs ≤ now - tab.latest storage now)) := by
  obtain ⟨watch, hw, he⟩ := Option.any_eq_true .. |>.mp hopen
  have hmarked : (if !decide (now - tab.latest storage now < pollingIdleMs) then
        { tab.look storage now with needsValidation := true } else tab.look storage now) =
      { tab.look storage now with
        needsValidation := tab.needsValidation ||
          decide (pollingIdleMs ≤ now - tab.latest storage now) } := by
    by_cases hactive : now - tab.latest storage now < pollingIdleMs
    · rw [decide_eq_true hactive, decide_eq_false (Int.not_le.mpr hactive), Bool.or_false]
      rfl
    · rw [decide_eq_false hactive, decide_eq_true (Int.not_lt.mp hactive), Bool.or_true]
      rfl
  have heffects : ∀ (changed active : Bool), (if changed then
      Effect.onPollingChange active :: if active then [.onActivity] else [] else []).any
        Effect.passes = false := by decide
  have h := heffects (decide (decide (now - tab.latest storage now < pollingIdleMs) ≠
    watch.pollingActive)) (decide (now - tab.latest storage now < pollingIdleMs))
  unfold check
  rw [hw]
  simp only
  rw [if_neg (by simpa using he), hmarked]
  by_cases hage : now - tab.latest storage now < sessionIdleMs
  · rw [if_pos hage, decide_eq_false (Int.not_le.mpr hage)]
    exact ⟨_, _, by simpa using h, rfl⟩
  · rw [if_neg hage, decide_eq_true (Int.not_lt.mp hage)]
    refine ⟨_, _, ?_, rfl⟩
    rw [List.any_append, Bool.or_eq_false_iff]
    exact ⟨by simpa using h, rfl⟩

theorem check_idle (h : tab.watch.any (!·.ended) = false) :
    check tab storage now = (tab, [], true) := by
  cases hw : tab.watch with
  | none =>
    unfold check
    rw [hw]
  | some watch =>
    have he : watch.ended = true := by simpa [hw] using h
    unfold check
    rw [hw]
    simp only
    rw [if_pos he]

/-- The tab after `check`. -/
theorem check_looks : Looks tab (check tab storage now).1 storage now := by
  cases hopen : tab.watch.any (!·.ended) with
  | false =>
    rw [check_idle hopen]
    exact .refl
  | true =>
    obtain ⟨watch', effects, -, e⟩ := @check_eq tab storage now hopen
    rw [e]
    obtain ⟨watch, hw, -⟩ := Option.any_eq_true .. |>.mp hopen
    exact ⟨.inr rfl, by rw [hw]; rfl⟩

theorem check_needs (h : tab.needsValidation = true) :
    (check tab storage now).1.needsValidation = true := by
  cases hopen : tab.watch.any (!·.ended) with
  | false =>
    rw [check_idle hopen]
    exact h
  | true =>
    obtain ⟨watch', effects, -, e⟩ := @check_eq tab storage now hopen
    rw [e]
    exact Bool.or_eq_true_iff.mpr (.inl h)

theorem check_passes : (check tab storage now).2.1.any Effect.passes = false := by
  cases hopen : tab.watch.any (!·.ended) with
  | false =>
    rw [check_idle hopen]
    rfl
  | true =>
    obtain ⟨watch', effects, heffects, e⟩ := @check_eq tab storage now hopen
    rw [e]
    exact heffects

theorem acceptInput_eq (session : Session) (watch : Watch) :
    ∃ watch' stored effects, effects.any Effect.passes = false ∧
      (stored = storage ∨ stored = some now) ∧
      acceptInput tab session watch storage now =
        ({ tab with current := some { session with stamp := now }, watch := some watch' },
          stored, effects) := by
  unfold acceptInput
  simp only
  split
  · split
    · exact ⟨_, _, _, rfl, .inr rfl, rfl⟩
    · split
      · exact ⟨_, _, _, rfl, .inr rfl, rfl⟩
      · exact ⟨_, _, _, rfl, .inr rfl, rfl⟩
  · split
    · exact ⟨_, _, _, rfl, .inl rfl, rfl⟩
    · split
      · exact ⟨_, _, _, rfl, .inl rfl, rfl⟩
      · exact ⟨_, _, _, rfl, .inl rfl, rfl⟩

/-- `input` is only a check, or renews the stamp after one that it has passed. -/
theorem input_cases :
    input tab storage now = ((check tab storage now).1, storage, (check tab storage now).2.1) ∨
    tab.watch.any (!·.ended) = true ∧ now - tab.latest storage now < sessionIdleMs ∧
      ∃ (session : Session) (watch' : Watch) (stored : Option Int) (effects : List Effect),
        effects.any Effect.passes = false ∧
        (stored = storage ∨ stored = some now) ∧
        input tab storage now =
          ({ tab with
              current := some { session with stamp := now }
              needsValidation := tab.needsValidation ||
                decide (pollingIdleMs ≤ now - tab.latest storage now)
              watch := some watch' },
            stored, effects) := by
  cases hopen : tab.watch.any (!·.ended) with
  | false =>
    refine .inl ?_
    unfold input
    rw [check_idle hopen]
  | true =>
    obtain ⟨watch', effects, heffects, e⟩ := @check_eq tab storage now hopen
    by_cases hage : sessionIdleMs ≤ now - tab.latest storage now
    · refine .inl ?_
      unfold input
      rw [e, decide_eq_true hage]
    · cases hc : tab.current with
      | none =>
        refine .inl ?_
        unfold input
        rw [e, decide_eq_false hage]
        simp only [Tab.look, hc, Option.map_none]
      | some session =>
        obtain ⟨watch'', stored, effects', heffects', hstored, e'⟩ :=
          @acceptInput_eq (check tab storage now).1 storage now
            { session with stamp := max session.stamp (read storage now) } watch'
        refine .inr ⟨rfl, by omega, session, watch'', stored, effects ++ effects', ?_, hstored, ?_⟩
        · rw [List.any_append, heffects, heffects', Bool.or_false]
        · unfold input
          rw [e, decide_eq_false hage]
          rw [e] at e'
          simp only [Tab.look, hc, Option.map_some] at e' ⊢
          rw [e']

/-- What `ensureActivityAuthorization` does before it decides: it looks, and may raise the flag. -/
structure Marks (tab marked : Tab) (storage : Option Int) (now age : Int) : Prop where
  current : marked.current = (tab.look storage now).current
  watch : marked.watch = tab.watch
  needs : marked.needsValidation = (tab.needsValidation || decide (pollingIdleMs ≤ age))

/-- The four ways out of `ensureActivityAuthorization`. -/
theorem ensure_cases :
    ∃ age, (tab.current.isSome = true → age = now - tab.latest storage now) ∧
      ((∃ message, ensureActivityAuthorization tab storage now =
          (tab.look storage now, [.reject message])) ∨
        ∃ marked, Marks tab marked storage now age ∧
          (marked.needsValidation = false ∧
              ensureActivityAuthorization tab storage now = (marked, [.letThrough 1]) ∨
            ∃ validation effects, effects.any Effect.passes = false ∧
              ensureActivityAuthorization tab storage now =
                ({ marked with validation }, effects))) := by
  refine ⟨if tab.current.isSome then now - tab.latest storage now else 0, fun hc => if_pos hc, ?_⟩
  unfold ensureActivityAuthorization
  generalize (if tab.current.isSome = true then now - tab.latest storage now else 0) = age
  simp only
  split
  · exact .inl ⟨_, rfl⟩
  · right
    generalize hm : (if age ≥ pollingIdleMs then { tab.look storage now with needsValidation := true }
      else tab.look storage now) = marked
    have hmarks : Marks tab marked storage now age := by
      subst hm
      split
      · rename_i hage
        exact ⟨rfl, rfl, by rw [decide_eq_true hage, Bool.or_true]⟩
      · rename_i hage
        exact ⟨rfl, rfl, by rw [decide_eq_false hage, Bool.or_false]; rfl⟩
    refine ⟨marked, hmarks, ?_⟩
    split
    · exact .inl ⟨by simpa using ‹(!marked.needsValidation) = true›, rfl⟩
    · right
      split
      · exact ⟨marked.validation, _, rfl, rfl⟩
      · split
        · exact ⟨_, _, rfl, rfl⟩
        · exact ⟨_, _, rfl, rfl⟩

theorem ensure_looks : Looks tab (ensureActivityAuthorization tab storage now).1 storage now := by
  obtain ⟨age, -, ⟨message, e⟩ | ⟨marked, hm, ⟨-, e⟩ | ⟨validation, effects, -, e⟩⟩⟩ :=
    @ensure_cases tab storage now
  · rw [e]
    exact ⟨.inr rfl, rfl⟩
  · rw [e]
    exact ⟨.inr hm.current, by rw [hm.watch]⟩
  · rw [e]
    exact ⟨.inr hm.current, by rw [← hm.watch]⟩

theorem ensure_needs (h : tab.needsValidation = true) :
    (ensureActivityAuthorization tab storage now).1.needsValidation = true := by
  obtain ⟨age, -, ⟨message, e⟩ | ⟨marked, hm, ⟨-, e⟩ | ⟨validation, effects, -, e⟩⟩⟩ :=
    @ensure_cases tab storage now
  · rw [e]
    exact h
  · rw [e, hm.needs, h, Bool.true_or]
  · rw [e]
    rw [hm.needs, h, Bool.true_or]

/-- Whoever passes at once has no flag and sees a fresh stamp. -/
theorem of_ensure_passes (hc : tab.current.isSome = true)
    (h : (ensureActivityAuthorization tab storage now).2.any Effect.passes = true) :
    tab.needsValidation = false ∧ now - tab.latest storage now < pollingIdleMs := by
  obtain ⟨age, hage, ⟨message, e⟩ | ⟨marked, hm, ⟨hneeds, -⟩ | ⟨validation, effects, heffects, e⟩⟩⟩ :=
    @ensure_cases tab storage now
  · rw [e] at h
    cases h
  · rw [hm.needs, Bool.or_eq_false_iff, hage hc] at hneeds
    exact ⟨hneeds.1, by simpa using hneeds.2⟩
  · rw [e, heffects] at h
    cases h

theorem settle_looks (ok : Bool) : Looks tab (settle tab ok).1 storage now := by
  unfold settle
  split
  · exact .refl
  · split <;> exact ⟨.inl rfl, rfl⟩

theorem settle_false_needs : (settle tab false).1.needsValidation = tab.needsValidation := by
  unfold settle
  split <;> rfl

theorem of_settle_passes {ok : Bool} (h : (settle tab ok).2.any Effect.passes = true) :
    ok = true ∧ tab.validation.any (decide <| 0 < ·.waiting) = true := by
  unfold settle at h
  split at h
  · cases h
  · rename_i validation hv
    split at h
    · rename_i hok
      rw [hv]
      exact ⟨hok, by simpa [Effect.passes] using h⟩
    · cases h

theorem focus_eq :
    (focus tab storage now).1 = (check tab storage now).1 ∧
      (focus tab storage now).2.any Effect.passes = false := by
  unfold focus
  simp only
  split
  · exact ⟨rfl, by rw [List.any_append, check_passes]; rfl⟩
  · exact ⟨rfl, check_passes⟩

/-- The first stamp of a tab is the stored one, or the start of the clock. -/
theorem watch_eq (hw : tab.watch = none) (hpositive : 0 < firstStamp tab storage now)
    (hpast : firstStamp tab storage now ≤ now) :
    ∃ watch' effects, effects.any Effect.passes = false ∧
      watchUserActivity tab storage now =
        ({ tab with
            made := tab.made + 1
            current := some ⟨tab.made, firstStamp tab storage now⟩
            needsValidation := tab.needsValidation ||
              decide (pollingIdleMs ≤ now - firstStamp tab storage now)
            watch := some watch' },
          some (firstStamp tab storage now), effects) := by
  have hread : read (some (firstStamp tab storage now)) now = firstStamp tab storage now :=
    if_pos ⟨hpositive, hpast⟩
  obtain ⟨watch', effects, heffects, e⟩ := @check_eq
    { tab with
      made := tab.made + 1
      current := some ⟨tab.made, firstStamp tab storage now⟩
      watch := some ⟨false, 0, 0, true⟩ } (some (firstStamp tab storage now)) now rfl
  refine ⟨watch', effects, heffects, ?_⟩
  unfold watchUserActivity
  rw [if_neg (by simp [hw])]
  simp only [e]
  simp only [Tab.latest, Tab.look, hread, Int.max_self, Option.map_some]

end Functions

/-! ## 5. One step -/

theorem Inv.stored_of_watching (h : Inv s) (hw : (s.tab t).watch.isSome = true) :
    s.history.lastInput.isSome = true ∧ s.storage.isSome = true := by
  obtain ⟨-, last, hlast, -⟩ := h.stamped _ (h.toClocked.latest_stamp (h.watching t hw))
  have hsome : s.history.lastInput.isSome = true := Option.isSome_iff_exists.mpr ⟨last, hlast⟩
  exact ⟨hsome, h.stored hsome⟩

/-- The stamp that a tab starts from. -/
theorem Inv.firstStamp_cases (h : Inv s) (hw : (s.tab t).watch = none) :
    s.storage = some (firstStamp (s.tab t) s.storage s.now) ∨
      s.storage = none ∧ s.history.lastInput = none ∧
        firstStamp (s.tab t) s.storage s.now = s.now := by
  cases hs : s.storage with
  | some n =>
    left
    have hpos := (h.stamped n (.inl hs)).1
    have hread : read (some n) s.now = n := hs ▸ h.toClocked.read_eq hs
    have hle : ((s.tab t).current.map (·.stamp)).getD 0 ≤ n := by
      cases hc : (s.tab t).current with
      | none => exact Int.le_of_lt hpos
      | some session => exact h.saved t session n hw hc hs
    unfold firstStamp
    rw [hread, Int.max_eq_right hle]
    rw [if_pos (by omega)]
  | none =>
    right
    have hlast : s.history.lastInput = none := by
      cases hl : s.history.lastInput with
      | none => rfl
      | some last =>
        have := h.stored (by rw [hl]; rfl)
        rw [hs] at this
        cases this
    have hc : (s.tab t).current = none := by
      cases hc : (s.tab t).current with
      | none => rfl
      | some session =>
        obtain ⟨-, last, hl, -⟩ := h.stamped _ (.inr ⟨t, session, hc, rfl⟩)
        cases hlast.symm.trans hl
    refine ⟨rfl, hlast, ?_⟩
    unfold firstStamp
    rw [hc]
    rfl

section Step

variable [DecidableEq τ] {action : Action} {tab' : Tab} {storage' : Option Int}
  {effects : List Effect}

/-- The stamps after a step are those of the tab that has moved, or older ones. -/
theorem stamp_act (hacted : (s.tab t).act s.storage s.now action = (tab', storage', effects)) {n : Int}
    (h : (s.act t action).Stamp n) :
    storage' = some n ∨ (∃ session, tab'.current = some session ∧ session.stamp = n) ∨ s.Stamp n := by
  unfold State.act at h
  rw [hacted] at h
  rcases h with h | ⟨u, session, hc, hn⟩
  · exact .inl h
  · rcases update_reads Tab.current hc with ⟨-, hc⟩ | ⟨-, hc⟩
    · exact .inr (.inl ⟨session, hc, hn⟩)
    · exact .inr (.inr (.inr ⟨u, session, hc, hn⟩))

/-- A stamp that the step makes is the time of an input that the session still admits. -/
def Fresh (s : State τ) (history' : History τ) (n : Int) : Prop :=
  n = s.now ∧ history'.lastInput = some s.now ∧ history'.expired = false

variable {history' : History τ}

theorem Clocked.act (h : Clocked s)
    (hacted : (s.tab t).act s.storage s.now action = (tab', storage', effects))
    (hhistory : s.history.record s.now t (s.tab t) action = history')
    (hlast : history'.lastInput = s.history.lastInput ∨ history'.lastInput = some s.now)
    (hexpired : history'.expired = true → s.history.expired = true)
    (hstored : history'.lastInput.isSome = true → storage'.isSome = true)
    (hstorage : ∀ n, storage' = some n → s.Stamp n ∨ Fresh s history' n)
    (hcurrent : ∀ session, tab'.current = some session →
      s.Stamp session.stamp ∨ Fresh s history' session.stamp) :
    Clocked (s.act t action) := by
  have hstamp : ∀ n, (s.act t action).Stamp n → s.Stamp n ∨ Fresh s history' n := by
    intro n hn
    rcases stamp_act hacted hn with hs | ⟨session, hc, hn⟩ | hs
    · exact hstorage n hs
    · rw [← hn]
      exact hcurrent session hc
    · exact .inl hs
  have e1 : (s.act t action).history = history' := hhistory
  have e2 : (s.act t action).storage = storage' := congrArg (·.2.1) hacted
  refine ⟨h.positive, fun last hl => ?_, fun n hn => ?_, fun hl => ?_, fun he => ?_⟩
  · rw [e1] at hl
    rcases hlast with e | e
    · exact h.past last (e.symm.trans hl)
    · cases e.symm.trans hl
      exact Int.le_refl _
  · rw [e1]
    rcases hstamp n hn with hs | ⟨rfl, hl, -⟩
    · obtain ⟨hpos, last, hl, hle⟩ := h.stamped n hs
      rcases hlast with e | e
      · exact ⟨hpos, last, e.trans hl, hle⟩
      · exact ⟨hpos, s.now, e, h.le_now hs⟩
    · exact ⟨h.positive, s.now, hl, Int.le_refl _⟩
  · rw [e2]
    rw [e1] at hl
    exact hstored hl
  · rw [e1] at he ⊢
    obtain ⟨hsome, hover⟩ := h.expired (hexpired he)
    refine ⟨?_, fun n hn => ?_⟩
    · rcases hlast with e | e
      · rw [e]
        exact hsome
      · rw [e]
        rfl
    · rcases hstamp n hn with hs | ⟨-, -, hfresh⟩
      · exact hover n hs
      · cases hfresh.symm.trans he

/-- What a request that passes in a step needs. -/
def Admits (s : State τ) (t : τ) (action : Action) : Prop :=
  (s.history.owes t = true → action = .revalidated true) ∧ s.history.expired = false

theorem Barrier.act (h : Barrier s)
    (hacted : (s.tab t).act s.storage s.now action = (tab', storage', effects))
    (hpasses : (s.tab t).watch.isSome = true → effects.any Effect.passes = true →
      Admits s t action) : Barrier (s.act t action) := by
  intro p hp
  rcases List.mem_append.mp hp with hp | hp
  · exact h p hp
  · rw [hacted] at hp
    unfold passedBy at hp
    split at hp
    · rename_i hany
      obtain ⟨hw, hany⟩ := Bool.and_eq_true_iff.mp hany
      cases List.mem_singleton.mp hp
      exact ⟨fun ho => decide_eq_true ((hpasses hw hany).1 ho), (hpasses hw hany).2⟩
    · cases hp

section

variable (h : Inv s)
include h

theorem Inv.act (hacted : (s.tab t).act s.storage s.now action = (tab', storage', effects))
    (hhistory : s.history.record s.now t (s.tab t) action = history') (hclock : Clocked (s.act t action))
    (hwatching : tab'.watch.isSome = true → tab'.current.isSome = true)
    (hstorage : storage' = s.storage ∨ storage' = some s.now)
    (hsaved : ∀ session n, tab'.watch = none → tab'.current = some session → storage' = some n →
      session.stamp ≤ n) (hown : tab'.watch.isSome = true → history'.owes t = true →
      tab'.needsValidation = true ∨ pollingIdleMs ≤ s.now - tab'.latest storage' s.now)
    (hothers : ∀ u, u ≠ t → (s.tab u).watch.isSome = true → history'.owes u = true →
      (s.tab u).needsValidation = true ∨ pollingIdleMs ≤ s.now - (s.tab u).latest storage' s.now)
    (hpasses : (s.tab t).watch.isSome = true → effects.any Effect.passes = true → Admits s t action) :
    Inv (s.act t action) := by
  have hself : (s.act t action).tab t = tab' := by
    unfold State.act
    rw [hacted]
    exact update_self ..
  have hne : ∀ u, u ≠ t → (s.act t action).tab u = s.tab u := fun u hu =>
    update_of_ne hu ..
  have e1 : (s.act t action).history = history' := hhistory
  have e2 : (s.act t action).storage = storage' := congrArg (·.2.1) hacted
  refine ⟨hclock, fun u hw => ?_, fun u session n hw hc hn => ?_, fun u hw ho => ?_,
    h.barrier.act hacted hpasses⟩
  · by_cases hu : u = t
    · subst hu
      rw [hself] at hw ⊢
      exact hwatching hw
    · rw [hne u hu] at hw ⊢
      exact h.watching u hw
  · rw [e2] at hn
    by_cases hu : u = t
    · subst hu
      rw [hself] at hw hc
      exact hsaved session n hw hc hn
    · rw [hne u hu] at hw hc
      rcases hstorage with e | e
      · exact h.saved u session n hw hc (e.symm.trans hn)
      · cases e.symm.trans hn
        exact h.le_now (.inr ⟨u, session, hc, rfl⟩)
  · rw [e1] at ho
    show _ ∨ pollingIdleMs ≤ s.now - ((s.act t action).tab u).latest (s.act t action).storage s.now
    rw [e2]
    by_cases hu : u = t
    · subst hu
      rw [hself] at hw ⊢
      exact hown hw ho
    · rw [hne u hu] at hw ⊢
      exact hothers u hu hw ho

/-- A tab that only looks changes nothing for the others. -/
theorem Inv.of_looks (hacted : (s.tab t).act s.storage s.now action = (tab', s.storage, effects))
    (hlooks : Looks (s.tab t) tab' s.storage s.now)
    (hhistory : s.history.record s.now t (s.tab t) action = history')
    (hlast : history'.lastInput = s.history.lastInput ∨
      s.history.lastInput.isSome = true ∧ history'.lastInput = some s.now)
    (hexpired : history'.expired = true → s.history.expired = true)
    (howes : ∀ u, history'.owes u = true → s.history.owes u = true)
    (hneeds : history'.owes t = true → (s.tab t).needsValidation = true → tab'.needsValidation = true)
    (hpasses : (s.tab t).watch.isSome = true → effects.any Effect.passes = true → Admits s t action) :
    Inv (s.act t action) := by
  have hlook : ∀ session, tab'.current = some session →
      (s.tab t).current = some session ∨ ∃ session', (s.tab t).current = some session' ∧
        session.stamp = max session'.stamp (read s.storage s.now) := by
    intro session hc
    rcases hlooks.current with e | e
    · exact .inl (e.symm.trans hc)
    · obtain ⟨session', hc', hs⟩ := Option.map_eq_some_iff.mp (e.symm.trans hc)
      exact .inr ⟨session', hc', by rw [← hs]⟩
  have hclock : Clocked (s.act t action) := by
    refine h.toClocked.act hacted hhistory (hlast.imp id (·.2)) hexpired (fun hl => ?_)
      (fun n hn => .inl (.inl hn)) fun session hc => .inl ?_
    · rcases hlast with e | ⟨hsome, -⟩
      · exact h.stored (e ▸ hl)
      · exact h.stored hsome
    · rcases hlook session hc with hc | ⟨session', hc, e⟩
      · exact .inr ⟨t, session, hc, rfl⟩
      · rw [e]
        exact h.toClocked.stamp_max hc
  refine h.act hacted hhistory hclock (fun hw => ?_) (.inl rfl) (fun session n hw hc hn => ?_)
    (fun hw ho => ?_) (fun u hu hw ho => h.owing u hw (howes u ho)) hpasses
  · rw [hlooks.watch] at hw
    rw [hlooks.current_isSome]
    exact h.watching t hw
  · have hw' : (s.tab t).watch = none := by
      rw [← Option.isNone_iff_eq_none, ← Option.not_isSome, ← hlooks.watch, hw]
      rfl
    rcases hlook session hc with hc | ⟨session', hc, e⟩
    · exact h.saved t session n hw' hc hn
    · rw [e, h.toClocked.read_eq hn]
      exact Int.max_le.mpr ⟨h.saved t session' n hw' hc hn, Int.le_refl _⟩
  · rw [hlooks.latest]
    rw [hlooks.watch] at hw
    exact (h.owing t hw (howes t ho)).imp (hneeds ho) id

/-- An input that its tab accepts; nobody does after the deadline. -/
theorem Inv.of_accepted {watch' : Watch} (hopen : (s.tab t).watch.any (!·.ended) = true)
    (hage : s.age t < sessionIdleMs) (hothers : OthersMarked s t)
    (heffects : effects.any Effect.passes = false) (hstorage : storage' = s.storage ∨ storage' = some s.now)
    (hacted : (s.tab t).act s.storage s.now .input =
      ({ s.tab t with
          current := some { session with stamp := s.now }
          needsValidation := (s.tab t).needsValidation || decide (pollingIdleMs ≤ s.age t)
          watch := some watch' },
        storage', effects)) : Inv (s.act t .input) := by
  have hw : (s.tab t).watch.isSome = true := by
    obtain ⟨watch, hw, -⟩ := Option.any_eq_true .. |>.mp hopen
    exact Option.isSome_iff_exists.mpr ⟨watch, hw⟩
  have hhistory : s.history.record s.now t (s.tab t) .input =
      { s.history with lastInput := some s.now } := if_pos hw
  have hexpired : s.history.expired = false := by
    refine Bool.eq_false_iff.mpr fun he => ?_
    have := h.toClocked.age_of_expired (h.watching t hw) he
    omega
  have hfresh : Fresh s { s.history with lastInput := some s.now } s.now := ⟨rfl, rfl, hexpired⟩
  have hclock : Clocked (s.act t .input) := by
    refine h.toClocked.act hacted hhistory (.inr rfl) id (fun _ => ?_) (fun n hn => ?_)
      fun session' hc => .inr ?_
    · rcases hstorage with e | e
      · rw [e]
        exact (h.stored_of_watching hw).2
      · rw [e]
        rfl
    · rcases hstorage with e | e
      · exact .inl (.inl (e ▸ hn))
      · cases e.symm.trans hn
        exact .inr hfresh
    · cases hc
      exact hfresh
  refine h.act hacted hhistory hclock (fun _ => rfl) hstorage (nofun)
    (fun _ ho => .inl ?_) (fun u hu hwu ho => ?_) fun _ hp => ?_
  · exact Bool.or_eq_true_iff.mpr ((h.owing t hw ho).imp id decide_eq_true)
  · rcases h.owing u hwu ho with hn | hold
    · exact .inl hn
    · exact .inl (hothers u hu hwu ho hold)
  · rw [heffects] at hp
    cases hp

theorem Inv.of_reset (hothers : OthersMarked s t) : Inv (s.act t .resetUserActivity) := by
  have hhistory : s.history.record s.now t (s.tab t) .resetUserActivity =
      { lastInput := some s.now, owes := update s.history.owes t false, expired := false } :=
    rfl
  have hclock : Clocked (s.act t .resetUserActivity) := by
    refine h.toClocked.act rfl hhistory (.inr rfl) (nofun) (fun _ => rfl) (fun n hn => ?_)
      fun session hc => .inr ?_
    · cases hn
      exact .inr ⟨rfl, rfl, rfl⟩
    · cases hc
      exact ⟨rfl, rfl, rfl⟩
  refine h.act rfl hhistory hclock (fun _ => rfl) (.inr rfl) (fun session n _ hc hn => ?_)
    (fun _ ho => ?_) (fun u hu hw ho => ?_) nofun
  · cases hc
    cases hn
    exact Int.le_refl _
  · cases (update_self t false s.history.owes).symm.trans ho
  · have ho : s.history.owes u = true := (update_of_ne hu false s.history.owes).symm.trans ho
    rcases h.owing u hw ho with hn | hold
    · exact .inl hn
    · exact .inl (hothers u hu hw ho hold)

theorem Inv.of_watch (hw : (s.tab t).watch = none) : Inv (s.act t .watchUserActivity) := by
  have hbounds : 0 < firstStamp (s.tab t) s.storage s.now ∧
      firstStamp (s.tab t) s.storage s.now ≤ s.now := by
    rcases h.firstStamp_cases hw with hs | ⟨-, -, e⟩
    · exact ⟨(h.stamped _ (.inl hs)).1, h.toClocked.le_now (.inl hs)⟩
    · rw [e]
      exact ⟨h.positive, Int.le_refl _⟩
  obtain ⟨watch', effects, heffects, hacted⟩ := watch_eq hw hbounds.1 hbounds.2
  have hhistory : s.history.record s.now t (s.tab t) .watchUserActivity =
      { s.history with
        lastInput := s.history.lastInput.or (some s.now)
        owes := update s.history.owes t (s.history.idleFor s.now pollingIdleMs) } :=
    if_neg (by simp [hw])
  have hstorage : some (firstStamp (s.tab t) s.storage s.now) = s.storage ∨
      some (firstStamp (s.tab t) s.storage s.now) = some s.now := by
    rcases h.firstStamp_cases hw with hs | ⟨-, -, e⟩
    · exact .inl hs.symm
    · exact .inr (congrArg some e)
  have hstamp : s.Stamp (firstStamp (s.tab t) s.storage s.now) ∨
      Fresh s { s.history with
        lastInput := s.history.lastInput.or (some s.now)
        owes := update s.history.owes t (s.history.idleFor s.now pollingIdleMs) }
        (firstStamp (s.tab t) s.storage s.now) := by
    rcases h.firstStamp_cases hw with hs | ⟨-, hl, e⟩
    · exact .inl (.inl hs)
    · refine .inr ⟨e, by rw [hl]; rfl, Bool.eq_false_iff.mpr fun he => ?_⟩
      have := (h.expired he).1
      rw [hl] at this
      cases this
  have hclock : Clocked (s.act t .watchUserActivity) := by
    refine h.toClocked.act hacted hhistory ?_ id (fun _ => rfl) (fun n hn => ?_) fun session hc => ?_
    · cases hl : s.history.lastInput with
      | none => exact .inr rfl
      | some last => exact .inl rfl
    · cases hn
      exact hstamp
    · cases hc
      exact hstamp
  refine h.act hacted hhistory hclock (fun _ => rfl) hstorage (nofun)
    (fun _ ho => ?_) (fun u hu hwu ho => ?_) fun hw' => ?_
  · have hi : s.history.idleFor s.now pollingIdleMs = true :=
      (update_self t _ s.history.owes).symm.trans ho
    refine .inl (Bool.or_eq_true_iff.mpr (.inr (decide_eq_true ?_)))
    rcases h.firstStamp_cases hw with hs | ⟨-, hl, -⟩
    · exact h.toClocked.stamp_of_idleFor (.inl hs) hi
    · unfold History.idleFor at hi
      rw [hl] at hi
      cases hi
  · have ho : s.history.owes u = true := (update_of_ne hu _ s.history.owes).symm.trans ho
    rcases h.firstStamp_cases hw with hs | ⟨hs, -, -⟩
    · rw [← hs]
      exact h.owing u hwu ho
    · have := (h.stored_of_watching hwu).2
      rw [hs] at this
      cases this
  · rw [hw] at hw'
    cases hw'

/-- An input that is only a check: it is real, but renews no stamp. -/
theorem Inv.of_refused (hacted : input (s.tab t) s.storage s.now =
      ((check (s.tab t) s.storage s.now).1, s.storage, (check (s.tab t) s.storage s.now).2.1)) :
    Inv (s.act t .input) := by
  have hquiet : (check (s.tab t) s.storage s.now).2.1.any Effect.passes = true →
      Admits s t .input := fun hp => nomatch check_passes.symm.trans hp
  cases hw : (s.tab t).watch.isSome with
  | true =>
    have hhistory : s.history.record s.now t (s.tab t) .input =
        { s.history with lastInput := some s.now } := if_pos hw
    exact h.of_looks hacted check_looks hhistory (.inr ⟨(h.stored_of_watching hw).1, rfl⟩) id
      (fun _ => id) (fun _ => check_needs) fun _ => hquiet
  | false =>
    have hhistory : s.history.record s.now t (s.tab t) .input = s.history :=
      if_neg (by rw [hw]; exact Bool.false_ne_true)
    exact h.of_looks hacted check_looks hhistory (.inl rfl) id (fun _ => id)
      (fun _ => check_needs) fun _ => hquiet

/-- Whoever passes at once owes nothing, and the session still runs. -/
theorem Inv.of_ensure : Inv (s.act t .ensureActivityAuthorization) := by
  refine h.of_looks rfl ensure_looks rfl (.inl rfl) id
    (fun _ => id) (fun _ => ensure_needs) fun hw hp => ?_
  obtain ⟨hneeds, hage⟩ := of_ensure_passes (h.watching t hw) hp
  refine ⟨fun ho => ?_, Bool.eq_false_iff.mpr fun he => ?_⟩
  · rcases h.owing t hw ho with hn | hold
    · cases hneeds.symm.trans hn
    · exact absurd hage (Int.not_lt.mpr hold)
  · have hexpired := h.toClocked.age_of_expired (h.watching t hw) he
    have : pollingIdleMs < sessionIdleMs := by decide
    unfold State.age at hexpired
    omega

/-- A revalidation settles. -/
theorem Inv.of_revalidated {ok : Bool} (hc : Condition s t (.revalidated ok)) :
    Inv (s.act t (.revalidated ok)) := by
  cases ok with
  | false =>
    refine h.of_looks rfl (settle_looks false) rfl (.inl rfl) id
      (fun _ => id) (fun _ hn => settle_false_needs.trans hn) fun _ hp => ?_
    cases (of_settle_passes hp).1
  | true =>
    cases hv : (s.tab t).validation.isSome with
    | false =>
      have hnone : (s.tab t).validation = none := by simpa using hv
      have hsettle : settle (s.tab t) true = (s.tab t, []) := by
        unfold settle
        rw [hnone]
      have hacted : (s.tab t).act s.storage s.now (.revalidated true) =
          (s.tab t, s.storage, []) := by
        show ((settle (s.tab t) true).1, s.storage, (settle (s.tab t) true).2) = _
        rw [hsettle]
      have hhistory : s.history.record s.now t (s.tab t) (.revalidated true) = s.history :=
        if_neg (by rw [hv]; exact Bool.false_ne_true)
      exact h.of_looks hacted .refl hhistory (.inl rfl) id (fun _ => id) (fun _ => id) nofun
    | true =>
      have hhistory : s.history.record s.now t (s.tab t) (.revalidated true) =
          { s.history with owes := update s.history.owes t false } := if_pos hv
      refine h.of_looks rfl (settle_looks true) hhistory (.inl rfl)
        id (fun u ho => ?_) (fun ho => ?_) fun hw hp => ⟨fun _ => rfl, ?_⟩
      · rcases update_eq_cases ho with ⟨-, ho⟩ | ⟨-, ho⟩
        · cases ho
        · exact ho
      · cases (update_self t false s.history.owes).symm.trans ho
      · refine Bool.eq_false_iff.mpr fun he => ?_
        have hexpired := h.toClocked.age_of_expired (h.watching t hw) he
        have := hc hw (of_settle_passes hp).2
        omega

theorem Inv.of_condition (hc : Condition s t action) : Inv (s.act t action) := by
  cases action with
  | resetUserActivity => exact h.of_reset hc
  | setActivityRevalidator registered =>
    exact h.of_looks rfl ⟨.inl rfl, rfl⟩ rfl (.inl rfl) id (fun _ => id) (fun _ => id) nofun
  | watchUserActivity =>
    cases hw : (s.tab t).watch with
    | none => exact h.of_watch hw
    | some watch =>
      have hacted : (s.tab t).act s.storage s.now .watchUserActivity =
          (s.tab t, s.storage, []) := if_pos (by rw [hw]; rfl)
      have hhistory : s.history.record s.now t (s.tab t) .watchUserActivity = s.history :=
        if_pos (by rw [hw]; rfl)
      exact h.of_looks hacted .refl hhistory (.inl rfl) id (fun _ => id) (fun _ => id) nofun
  | input =>
    rcases @input_cases (s.tab t) s.storage s.now with
      e | ⟨hopen, hage, session, watch', stored, effects, heffects, hstored, e⟩
    · exact h.of_refused e
    · exact h.of_accepted hopen hage (hc ⟨hopen, hage⟩) heffects hstored e
  | focus =>
    refine h.of_looks rfl (focus_eq.1 ▸ check_looks) rfl (.inl rfl) id
      (fun _ => id) (fun _ hn => ?_) fun _ hp => nomatch focus_eq.2.symm.trans hp
    rw [focus_eq.1]
    exact check_needs hn
  | check =>
    exact h.of_looks rfl check_looks rfl (.inl rfl) id (fun _ => id)
      (fun _ => check_needs) fun _ hp => nomatch check_passes.symm.trans hp
  | userActivityAge =>
    exact h.of_looks rfl ⟨.inr rfl, rfl⟩ rfl (.inl rfl) id (fun _ => id) (fun _ => id) nofun
  | ensureActivityAuthorization => exact h.of_ensure
  | revalidated ok => exact h.of_revalidated hc

/-- **One step keeps the invariant.** -/
theorem Inv.step {e : Event τ} (hc : Condition (s.elapse e.delay) e.tab e.action) : Inv (step s e) :=
  (h.elapse e.delay).of_condition hc

end

/-- **A run whose steps meet the condition keeps it.** -/
theorem Inv.run {events : List (Event τ)} (h : Inv s) (hm : Meets s events) : Inv (run s events) := by
  induction events generalizing s with
  | nil => exact h
  | cons e events ih => exact ih (h.step hm.1) hm.2

end Step

/-! ## 6. The barrier -/

theorem Inv.start (start : Nat) : Inv (initial start : State τ) where
  positive := by
    show (0 : Int) < start + 1
    omega
  past _ hl := nomatch hl
  stamped _ hn := by
    rcases hn with hn | ⟨_, _, hc, -⟩
    · cases hn
    · cases hc
  stored hl := nomatch hl
  expired he := nomatch he
  watching _ hw := nomatch hw
  saved _ _ _ _ hc := nomatch hc
  owing _ hw := nomatch hw
  barrier _ hp := nomatch hp

/-- **The idle barrier**: in every run whose steps meet the condition it holds in every tab. -/
theorem barrier_run [DecidableEq τ] (start : Nat) (events : List (Event τ))
    (hm : Meets (initial start) events) : Barrier (run (initial start) events) :=
  ((Inv.start start).run hm).barrier

/-- Two tabs after a login in the first. -/
def twoTabs : List (Event Bool) :=
  [⟨0, false, .resetUserActivity⟩, ⟨0, false, .watchUserActivity⟩, ⟨0, true, .watchUserActivity⟩,
    ⟨0, true, .setActivityRevalidator true⟩]

/-- Both tabs look before the first one becomes active; the second revalidates, then passes. -/
def bothLook : List (Event Bool) :=
  twoTabs ++ [⟨300000, false, .check⟩, ⟨1, true, .check⟩, ⟨1, false, .input⟩,
    ⟨1, true, .ensureActivityAuthorization⟩, ⟨50, true, .revalidated true⟩]

theorem barrier_run_bothLook :
    (run (initial 0) bothLook).passed = [⟨true, true, true, false⟩] ∧
      Barrier (run (initial 0) bothLook) :=
  ⟨by decide +kernel, barrier_run 0 bothLook (by decide +kernel)⟩

/-- **A tab that slept passes**: no timer of the second tab fires during the five minutes, the
    first becomes active again, and the second sees a fresh stamp and no flag. -/
theorem sleeping_tab_passes : ¬ ∀ events : List (Event Bool), Barrier (run (initial 0) events) := by
  intro h
  have : Barrier (run (initial 0) (twoTabs ++
      [⟨300000, false, .input⟩, ⟨1, true, .ensureActivityAuthorization⟩])) := h _
  revert this
  decide +kernel

/-- A request that awaits a revalidation goes on when that succeeds two hours later. -/
example : ¬ Barrier (run (initial 0) (twoTabs ++
    [⟨300000, true, .ensureActivityAuthorization⟩, ⟨6900000, true, .revalidated true⟩])) := by
  decide +kernel

end AdsManagement.Web.SessionActivity
