/-
  File:      Lib/RemoteCalls.lean
  Subject:   COMPUTATIONS THAT CALL OTHER SYSTEMS: a call is answered, or is refused and does
             nothing, or takes effect and its answer is lost. A computation that throws keeps
             the state it has reached.

  * `call` -- one call, whose fate is the next one given; where none is left it is answered;
  * `exec_bind`, `exec_tryCatch`, `exec_call` -- how a computation runs, part by part;
  * `call_cases` -- what a call can do, whatever its fate;
  * `MovesAt r m w`, `Moves r m` -- a run leads along `r`, and every run does; for a preorder that is
    shown part by part.
-/
import Mathlib.Order.Defs.Unbundled

namespace AdsManagement.Lib

variable {ε σ α β : Type}

inductive Fate (ε : Type) where
  | answered
  | refused (e : ε)
  | lost (e : ε)

/-- The state of the systems that are called, and what becomes of the calls to come. -/
structure Remote (ε σ : Type) where
  state : σ
  fates : List (Fate ε)

abbrev Calls (ε σ : Type) := ExceptT ε (StateM (Remote ε σ))

/-- What a computation returns or throws, and what it leaves. -/
def exec (m : Calls ε σ α) (w : Remote ε σ) : Except ε α × Remote ε σ := StateT.run (ExceptT.run m) w

/-- The state, looked at without a call. -/
def observe (f : σ → α) : Calls ε σ α := fun w => (.ok (f w.state), w)

/-- A note in the state that no call makes. -/
def note (f : σ → σ) : Calls ε σ Unit := fun w => (.ok (), { w with state := f w.state })

def call (f : σ → Except ε α × σ) : Calls ε σ α := fun w =>
  match w.fates with
  | [] => ((f w.state).1, ⟨(f w.state).2, []⟩)
  | .answered :: fates => ((f w.state).1, ⟨(f w.state).2, fates⟩)
  | .refused e :: fates => (.error e, ⟨w.state, fates⟩)
  | .lost e :: fates => (.error e, ⟨(f w.state).2, fates⟩)

/-- A call that only asks. -/
def query (f : σ → Except ε α) : Calls ε σ α := call fun s => (f s, s)

/-! ## 1. Runs -/

theorem exec_bind (m : Calls ε σ α) (f : α → Calls ε σ β) (w : Remote ε σ) :
    exec (m >>= f) w = match exec m w with
      | (.ok a, w') => exec (f a) w'
      | (.error e, w') => (.error e, w') := by
  change StateT.run (ExceptT.run m >>= ExceptT.bindCont f) w = _
  rw [StateT.run_bind]
  unfold exec
  rcases StateT.run (ExceptT.run m) w with ⟨a | a, w'⟩ <;> rfl

theorem exec_tryCatch (m : Calls ε σ α) (h : ε → Calls ε σ α) (w : Remote ε σ) :
    exec (tryCatch m h) w = match exec m w with
      | (.ok a, w') => (.ok a, w')
      | (.error e, w') => exec (h e) w' := by
  change StateT.run (ExceptT.run (ExceptT.tryCatch m h)) w = _
  unfold ExceptT.tryCatch
  rw [ExceptT.run_mk, StateT.run_bind, show StateT.run m w = exec m w from rfl]
  rcases exec m w with ⟨a | a, w'⟩ <;> rfl

theorem exec_call_answered (f : σ → Except ε α × σ) (s : σ) :
    exec (call f) ⟨s, []⟩ = ((f s).1, ⟨(f s).2, []⟩) := rfl

variable {w' w : Remote ε σ}

/-- A sequence returned when both parts did. -/
theorem exec_bind_eq_ok {m : Calls ε σ α} {f : α → Calls ε σ β} {b : β} :
    exec (m >>= f) w = (.ok b, w') ↔ ∃ a v, exec m w = (.ok a, v) ∧ exec (f a) v = (.ok b, w') := by
  rw [exec_bind]
  rcases exec m w with ⟨e | a, v⟩
  · exact ⟨nofun, fun ⟨_, _, h, _⟩ => (nomatch h)⟩
  · refine ⟨fun h => ⟨a, v, rfl, h⟩, fun ⟨_, _, h, hf⟩ => ?_⟩
    cases h
    exact hf

variable {f : σ → Except ε α × σ}

/-- **What a call can do.** -/
theorem call_cases {a : Except ε α} (h : exec (call f) w = (a, w')) :
    (w'.state = w.state ∧ ∃ e, a = .error e) ∨
      (w'.state = (f w.state).2 ∧ (a = (f w.state).1 ∨ ∃ e, a = .error e)) := by
  obtain ⟨s, fates⟩ := w
  rcases fates with - | ⟨- | e | e, fates⟩ <;> cases h
  · exact .inr ⟨rfl, .inl rfl⟩
  · exact .inr ⟨rfl, .inl rfl⟩
  · exact .inl ⟨rfl, e, rfl⟩
  · exact .inr ⟨rfl, .inr ⟨e, rfl⟩⟩

/-- A call that returned has been answered. -/
theorem call_eq_ok {a : α} (h : exec (call f) w = (.ok a, w')) : f w.state = (.ok a, w'.state) := by
  rcases call_cases h with ⟨-, e, he⟩ | ⟨hs, he | ⟨e, he⟩⟩
  · cases he
  · exact Prod.ext he.symm hs.symm
  · cases he

/-- A question that was answered, and what it left. -/
theorem query_eq_ok {f : σ → Except ε α} {a : α} (h : exec (query f) w = (.ok a, w')) :
    f w.state = .ok a ∧ w'.state = w.state := by
  have hc := call_eq_ok h
  exact ⟨congrArg Prod.fst hc, (congrArg Prod.snd hc).symm⟩

/-! ## 2. Where a computation leads -/

/-- A run of `m` leads along `r`. -/
def MovesAt (r : σ → σ → Prop) (m : Calls ε σ α) (w : Remote ε σ) : Prop :=
  r w.state (exec m w).2.state

/-- Whatever becomes of its calls, a computation leads along `r`. -/
def Moves (r : σ → σ → Prop) (m : Calls ε σ α) : Prop := ∀ w, MovesAt r m w

section Moves

variable {r : σ → σ → Prop} {m : Calls ε σ α}

theorem Moves.mono {r' : σ → σ → Prop} (h : Moves r m) (hr : ∀ s s', r s s' → r' s s') : Moves r' m :=
  fun w => hr _ _ (h w)

variable {m' : Calls ε σ α} {p : Prop}

theorem MovesAt.ite [Decidable p] (hm : p → MovesAt r m w) (hm' : ¬ p → MovesAt r m' w) :
    MovesAt r (if p then m else m') w := by
  split
  · next h => exact hm h
  · next h => exact hm' h

theorem Moves.ite [Decidable p] (hm : Moves r m) (hm' : Moves r m') :
    Moves r (if p then m else m') :=
  fun w => .ite (fun _ => hm w) fun _ => hm' w

theorem moves_note {f : σ → σ} (h : ∀ s, r s (f s)) : Moves r (note f : Calls ε σ Unit) := fun _ => h _

variable [IsPreorder σ r]

theorem moves_pure (a : α) : Moves r (pure a : Calls ε σ α) := fun _ => refl_of r _

theorem moves_throw (e : ε) : Moves r (throw e : Calls ε σ α) := fun _ => refl_of r _

theorem moves_observe (f : σ → α) : Moves r (observe f : Calls ε σ α) := fun _ => refl_of r _

theorem movesAt_call (h : r w.state (f w.state).2) : MovesAt r (call f) w := by
  unfold MovesAt
  rcases hc : exec (call f) w with ⟨a, v⟩
  rcases call_cases hc with ⟨hs, -⟩ | ⟨hs, -⟩
  · exact hs ▸ refl_of r _
  · exact hs ▸ h

theorem moves_call (h : ∀ s, r s (f s).2) : Moves r (call f) :=
  fun _ => movesAt_call (h _)

theorem moves_query (f : σ → Except ε α) : Moves r (query f) := moves_call fun _ => refl_of r _

/-- A sequence: the second part starts where the first has led. -/
theorem MovesAt.bind {f : α → Calls ε σ β} (hm : MovesAt r m w)
    (hf : ∀ a v, exec m w = (.ok a, v) → MovesAt r (f a) v) : MovesAt r (m >>= f) w := by
  unfold MovesAt at hm ⊢
  rw [exec_bind]
  rcases hc : exec m w with ⟨e | a, v⟩
  · rw [hc] at hm
    exact hm
  · rw [hc] at hm
    exact trans_of r hm (hf a v hc)

variable {h : ε → Calls ε σ α}

theorem MovesAt.tryCatch (hm : MovesAt r m w) (hh : ∀ e v, exec m w = (.error e, v) → MovesAt r (h e) v) :
    MovesAt r (tryCatch m h) w := by
  unfold MovesAt at hm ⊢
  rw [exec_tryCatch]
  rcases hc : exec m w with ⟨e | a, v⟩
  · rw [hc] at hm
    exact trans_of r hm (hh e v hc)
  · rw [hc] at hm
    exact hm

theorem Moves.bind {f : α → Calls ε σ β} (hm : Moves r m) (hf : ∀ a, Moves r (f a)) :
    Moves r (m >>= f) :=
  fun w => (hm w).bind fun a v _ => hf a v

theorem Moves.tryCatch (hm : Moves r m) (hh : ∀ e, Moves r (h e)) :
    Moves r (tryCatch m h) :=
  fun w => (hm w).tryCatch fun e v _ => hh e v

end Moves

end AdsManagement.Lib
