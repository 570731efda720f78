/-
  File:      Auth/RateWindows.lean
  Subject:   THE DISTRIBUTED RATE LIMITER (postgres-security-rate-limiter.ts) over the table that all
             instances share.

  A call of `consume` is one statement, which reads the clock of the database more than once; a
  clean-up is another, which reads it for each row. The steps below are these statements, of any
  number of instances, and no reading is before one of an earlier statement. When a clean-up comes
  depends on a counter of the instance (`requestsSinceCleanup`); here it may come at any point.

  * `dateBin` -- the aligned windows;
  * `RateInv` -- the bucket of a window that is not over holds the number of its calls;
  * `fixed_window_admits` -- the first calls of a window are the allowed ones, at most twice the
    limit in any interval of a window's length, and no clean-up takes the bucket of the current
    window.
-/
import Mathlib.Data.List.Basic
import Mathlib.Tactic.Ring
import AdsManagement.Lib.Runs

namespace AdsManagement.Auth

open Lib List Function

/-! ## 1. Aligned windows -/

/-- `date_bin` from 1970 on, in microseconds. -/
def dateBin (stride t : Int) : Int := t / stride * stride

/-- `(windowMs || ' milliseconds')::interval`. -/
def interval (windowMs : Int) : Int := windowMs * 1000

section
variable {stride t a : Int}

theorem lt_dateBin_add (hpos : 0 < stride) : t < dateBin stride t + stride := by
  have h := Int.lt_ediv_add_one_mul_self t hpos
  rw [Int.add_mul, Int.one_mul] at h
  exact h

/-- An interval of a window's length meets two windows at most. -/
theorem dateBin_interval (hpos : 0 < stride) (hfrom : a ≤ t) (hto : t ≤ a + stride) :
    dateBin stride t = dateBin stride a ∨ dateBin stride t = dateBin stride a + stride := by
  have hlow : a / stride ≤ t / stride := Int.ediv_le_ediv hpos hfrom
  have hhigh : t / stride ≤ a / stride + 1 := by
    have h := Int.ediv_le_ediv hpos hto
    rwa [Int.add_ediv_of_dvd_right (Int.dvd_refl stride), Int.ediv_self (by omega)] at h
  unfold dateBin
  have hcases : t / stride = a / stride ∨ t / stride = a / stride + 1 := by omega
  rcases hcases with h | h
  · exact .inl (by rw [h])
  · exact .inr (by rw [h]; ring)

end

/-! ## 2. The statements -/

structure ConsumeArgs where
  key : String
  limit : Int
  windowMs : Int

/-- What makes `consume` throw: its policy, or the sum of the statement, which is one of `integer`
    before `LEAST` sees it. -/
inductive ConsumeError where
  | policy (message : String)
  | integerOutOfRange
deriving DecidableEq

/-- `assertPolicy`; that the numbers are integers is their type. -/
def assertPolicy (limit windowMs : Int) : Except ConsumeError Unit :=
  if limit < 1 ∨ limit > 1000000 then .error (.policy "Rate-limit policy limit is out of range.")
  else if windowMs < 1000 ∨ windowMs > 86400000 then .error (.policy "Rate-limit policy window is out of range.")
  else .ok ()

variable {windowMs limit : Int}

theorem assertPolicy_eq_ok :
    assertPolicy limit windowMs = .ok () ↔ 1 ≤ limit ∧ limit ≤ 1000000 ∧ 1000 ≤ windowMs ∧ windowMs ≤ 86400000 := by
  unfold assertPolicy
  by_cases hl : limit < 1 ∨ limit > 1000000
  · rw [if_pos hl]
    exact ⟨nofun, fun h => by omega⟩
  · rw [if_neg hl]
    by_cases hw : windowMs < 1000 ∨ windowMs > 86400000
    · rw [if_pos hw]
      exact ⟨nofun, fun h => by omega⟩
    · rw [if_neg hw]
      exact ⟨fun _ => by omega, fun _ => rfl⟩

/-- The primary key of `security_rate_limit_buckets`. -/
structure BucketKey where
  keyHash : String
  windowStart : Int
  windowMs : Int
deriving DecidableEq

structure Bucket where
  count : Int
  expiresAt : Int

abbrev BucketTable := BucketKey → Option Bucket

structure RateLimitRow where
  count : Int
  retryAfterSeconds : Int

structure RateLimitDecision where
  allowed : Bool
  limit : Int
  remaining : Int
  retryAfterSeconds : Int

def maxInteger : Int := 2147483647

/-- `GREATEST(1, CEIL(EXTRACT(EPOCH FROM ("expires_at" - clock_timestamp()))))`. -/
def retryAfter (expiresAt now : Int) : Int := max 1 ((expiresAt - now + 999999) / 1000000)

/-- The `INSERT … ON CONFLICT … DO UPDATE … RETURNING`. It bins the reading `binAt` of the clock and
    returns at the reading `returnAt`. -/
def upsertBucket (keyHash : String) (windowMs binAt returnAt : Int) (buckets : BucketTable) :
    Except ConsumeError (BucketTable × RateLimitRow) :=
  let windowStart := dateBin (interval windowMs) binAt
  let key : BucketKey := { keyHash, windowStart, windowMs }
  let store := fun bucket : Bucket =>
    (update buckets key (some bucket),
      { count := bucket.count, retryAfterSeconds := retryAfter bucket.expiresAt returnAt : RateLimitRow })
  match buckets key with
  | none => .ok (store { count := 1, expiresAt := windowStart + interval windowMs })
  | some bucket =>
    if bucket.count + 1 > maxInteger then .error .integerOutOfRange
    else .ok (store { bucket with count := min (bucket.count + 1) maxInteger })

/-- `consume`. -/
def consume (hash : String → String) (args : ConsumeArgs) (binAt returnAt : Int) (buckets : BucketTable) :
    BucketTable × Except ConsumeError RateLimitDecision :=
  match assertPolicy args.limit args.windowMs with
  | .error error => (buckets, .error error)
  | .ok () =>
    match upsertBucket (hash args.key) args.windowMs binAt returnAt buckets with
    | .error error => (buckets, .error error)
    | .ok (buckets, row) =>
      (buckets, .ok
        { allowed := row.count ≤ args.limit
          limit := args.limit
          remaining := max 0 (args.limit - row.count)
          retryAfterSeconds := row.retryAfterSeconds })

/-- `DELETE … WHERE "expires_at" < clock_timestamp()`, the clock read for each row. -/
def removeExpiredBuckets (readAt : BucketKey → Int) (buckets : BucketTable) : BucketTable := fun key =>
  (buckets key).filter fun bucket => ¬ bucket.expiresAt < readAt key

/-! ## 3. Runs -/

structure RateStore where
  clock : Int
  buckets : BucketTable

/-- A call of `consume`, with the reading of the clock that gives it its window. -/
structure RateCall where
  args : ConsumeArgs
  binAt : Int
  result : Except ConsumeError RateLimitDecision

def RateCall.allowed (call : RateCall) : Bool :=
  match call.result with
  | .ok decision => decision.allowed
  | .error _ => false

inductive RateStep (hash : String → String) (s : RateStore) : List RateCall → RateStore → Prop where
  | consume (args : ConsumeArgs) (binAt returnAt : Int) (after : s.clock ≤ binAt) (inOrder : binAt ≤ returnAt) :
      RateStep hash s [{ args, binAt, result := (consume hash args binAt returnAt s.buckets).2 }]
        { clock := returnAt, buckets := (consume hash args binAt returnAt s.buckets).1 }
  | cleanup (readAt : BucketKey → Int) (endAt : Int) (inOrder : ∀ key, s.clock ≤ readAt key ∧ readAt key ≤ endAt) :
      RateStep hash s [] { clock := endAt, buckets := removeExpiredBuckets readAt s.buckets }

/-- The calls so far, in their order, and the store. -/
def RateRun (hash : String → String) : List RateCall × RateStore → Prop :=
  Reachable (fun a => a.1 = [] ∧ a.2.buckets = fun _ => none) fun a b =>
    ∃ calls, RateStep hash a.2 calls b.2 ∧ b.1 = a.1 ++ calls

def RateCall.bucketKey (hash : String → String) (call : RateCall) : BucketKey :=
  { keyHash := hash call.args.key
    windowStart := dateBin (interval call.args.windowMs) call.binAt
    windowMs := call.args.windowMs }

def RateCall.valid (call : RateCall) : Prop := assertPolicy call.args.limit call.args.windowMs = .ok ()

instance (call : RateCall) : Decidable call.valid := decidable_of_iff _ assertPolicy_eq_ok.symm

/-- The calls that reach a bucket. -/
def callsOn (hash : String → String) (key : BucketKey) (calls : List RateCall) : List RateCall :=
  calls.filter fun call => call.valid ∧ call.bucketKey hash = key

/-- What a bucket holds after some calls. -/
def countAfter (calls : Nat) : Option Int := if calls = 0 then none else some (min calls maxInteger)

/-- The end of a bucket's window. -/
def BucketKey.windowEnd (key : BucketKey) : Int := key.windowStart + interval key.windowMs

structure RateInv (hash : String → String) (calls : List RateCall) (s : RateStore) : Prop where
  expiry : ∀ key bucket, s.buckets key = some bucket → bucket.expiresAt = key.windowEnd
  counted : ∀ key, s.clock < key.windowEnd →
    (s.buckets key).map (·.count) = countAfter (callsOn hash key calls).length
  decided : ∀ (key : BucketKey) (i : Nat) (call : RateCall), (callsOn hash key calls)[i]? = some call →
    (call.allowed = true ↔ (i : Int) < call.args.limit)

section
variable {hash : String → String} {calls : List RateCall} {s s' : RateStore} {args : ConsumeArgs} {key : BucketKey}

/-! ## 4. One call -/

theorem consume_of_not_valid (hash : String → String) (h : assertPolicy args.limit args.windowMs ≠ .ok ()) (binAt returnAt : Int)
    (buckets : BucketTable) :
    ∃ error, consume hash args binAt returnAt buckets = (buckets, .error error) := by
  unfold consume
  cases hp : assertPolicy args.limit args.windowMs with
  | error error => exact ⟨error, rfl⟩
  | ok _ => exact absurd hp h

variable {buckets : BucketTable}

/-- **One call** of a valid policy, on a bucket that holds the number of the calls before. -/
theorem consume_spec (returnAt : Int) {binAt : Int} {n : Nat}
    (hvalid : assertPolicy args.limit args.windowMs = .ok ())
    (hkey : key = ⟨hash args.key, dateBin (interval args.windowMs) binAt, args.windowMs⟩)
    (hexpiry : ∀ bucket, buckets key = some bucket → bucket.expiresAt = key.windowEnd)
    (hcount : (buckets key).map (·.count) = countAfter n) :
    ∃ table result, consume hash args binAt returnAt buckets = (table, result) ∧
      (∀ other, other ≠ key → table other = buckets other) ∧
      (∀ bucket, table key = some bucket → bucket.expiresAt = key.windowEnd) ∧
      (table key).map (·.count) = countAfter (n + 1) ∧
      (RateCall.allowed ⟨args, binAt, result⟩ = true ↔ (n : Int) < args.limit) := by
  obtain ⟨hlimit, hlimit', -, -⟩ := assertPolicy_eq_ok.mp hvalid
  unfold consume upsertBucket
  simp only [hvalid, ← hkey]
  cases hbucket : buckets key with
  | none =>
    -- the first call of the window
    have hn : n = 0 := by
      rw [hbucket] at hcount
      unfold countAfter at hcount
      by_contra hne
      rw [if_neg hne] at hcount
      cases hcount
    subst hn
    refine ⟨_, _, rfl, fun other hne => update_of_ne hne _ _, ?_, ?_, ?_⟩
    · intro bucket hb
      rw [update_self] at hb
      cases hb
      rw [hkey]
      rfl
    · rw [update_self]
      rfl
    · simp only [RateCall.allowed, decide_eq_true_eq]
      omega
  | some bucket =>
    have hn : n ≠ 0 ∧ bucket.count = min (n : Int) maxInteger := by
      rw [hbucket] at hcount
      unfold countAfter at hcount
      by_cases hne : n = 0
      · rw [if_pos hne] at hcount
        cases hcount
      · rw [if_neg hne] at hcount
        exact ⟨hne, Option.some.inj hcount⟩
    obtain ⟨hne, hcount⟩ := hn
    have hmax : maxInteger = 2147483647 := rfl
    simp only
    by_cases hfull : bucket.count + 1 > maxInteger
    · -- the sum is no integer: the statement fails, and so did or will every later one
      rw [if_pos hfull]
      refine ⟨_, _, rfl, fun _ _ => rfl, hexpiry, ?_, ?_⟩
      · rw [hbucket, Option.map_some]
        unfold countAfter
        refine congrArg some ?_
        omega
      · constructor
        · nofun
        · omega
    · rw [if_neg hfull]
      refine ⟨_, _, rfl, fun other hne => update_of_ne hne _ _, ?_, ?_, ?_⟩
      · intro b hb
        rw [update_self] at hb
        cases hb
        exact hexpiry bucket hbucket
      · rw [update_self]
        unfold countAfter
        refine congrArg some ?_
        push_cast
        omega
      · simp only [RateCall.allowed, decide_eq_true_eq]
        omega

/-! ## 5. Every run -/

theorem callsOn_append (calls new : List RateCall) :
    callsOn hash key (calls ++ new) = callsOn hash key calls ++ callsOn hash key new := filter_append _ _

variable {readAt : BucketKey → Int}

/-- A clean-up leaves what has not expired. -/
theorem removeExpiredBuckets_of_le
    (hexpiry : ∀ bucket, buckets key = some bucket → bucket.expiresAt = key.windowEnd)
    (hcurrent : readAt key ≤ key.windowEnd) : removeExpiredBuckets readAt buckets key = buckets key := by
  unfold removeExpiredBuckets
  cases hbucket : buckets key with
  | none => rfl
  | some bucket =>
    have := hexpiry bucket hbucket
    exact Option.filter_some_pos (by simpa [this] using hcurrent)

theorem RateInv.cleanup (h : RateInv hash calls s) {endAt : Int}
    (inOrder : ∀ key, s.clock ≤ readAt key ∧ readAt key ≤ endAt) :
    RateInv hash calls { clock := endAt, buckets := removeExpiredBuckets readAt s.buckets } where
  expiry := by
    intro key bucket hb
    exact h.expiry key bucket (Option.eq_some_of_filter_eq_some hb)
  counted := by
    intro key hclock
    obtain ⟨hfrom, hto⟩ := inOrder key
    have hclock' : endAt < key.windowEnd := hclock
    show (removeExpiredBuckets readAt s.buckets key).map (·.count) = _
    rw [removeExpiredBuckets_of_le (h.expiry key) (by omega)]
    exact h.counted key (by omega)
  decided := h.decided

theorem RateInv.consume (h : RateInv hash calls s) {binAt returnAt : Int} (after : s.clock ≤ binAt)
    (inOrder : binAt ≤ returnAt) :
    RateInv hash (calls ++ [{ args, binAt, result := (consume hash args binAt returnAt s.buckets).2 }])
      { clock := returnAt, buckets := (consume hash args binAt returnAt s.buckets).1 } := by
  by_cases hvalid : assertPolicy args.limit args.windowMs = .ok ()
  · -- the window of the reading is not over, so its bucket holds the calls so far
    obtain ⟨-, -, hwindow, -⟩ := assertPolicy_eq_ok.mp hvalid
    let bucketKey : BucketKey := ⟨hash args.key, dateBin (interval args.windowMs) binAt, args.windowMs⟩
    have hcurrent : s.clock < bucketKey.windowEnd := by
      have := @lt_dateBin_add (interval args.windowMs) binAt (by unfold interval; omega)
      show s.clock < dateBin (interval args.windowMs) binAt + interval args.windowMs
      omega
    obtain ⟨table, result, hconsume, hothers, hexpiry, hcount, hallowed⟩ :=
      consume_spec returnAt hvalid rfl (h.expiry bucketKey) (h.counted bucketKey hcurrent)
    rw [hconsume]
    have hon : callsOn hash bucketKey [⟨args, binAt, result⟩] = [⟨args, binAt, result⟩] := by
      unfold callsOn
      rw [filter_cons_of_pos, filter_nil]
      exact decide_eq_true ⟨hvalid, rfl⟩
    have hoff : ∀ key, key ≠ bucketKey → callsOn hash key [⟨args, binAt, result⟩] = [] := by
      intro key hne
      unfold callsOn
      rw [filter_cons_of_neg, filter_nil]
      simp only [decide_eq_true_eq]
      exact fun hmem => hne hmem.2.symm
    refine { expiry := ?_, counted := ?_, decided := ?_ }
    · intro key bucket hb
      by_cases hkey : key = bucketKey
      · rw [hkey] at hb ⊢
        exact hexpiry bucket hb
      · exact h.expiry key bucket ((hothers key hkey).symm.trans hb)
    · intro key hclock
      have hclock' : returnAt < key.windowEnd := hclock
      rw [callsOn_append]
      by_cases hkey : key = bucketKey
      · rw [hkey, hon, length_append]
        exact hcount
      · rw [hoff key hkey, append_nil]
        exact (congrArg (Option.map (·.count)) (hothers key hkey)).trans (h.counted key (by omega))
    · intro key i call hcall
      rw [callsOn_append] at hcall
      by_cases hkey : key = bucketKey
      · rw [hkey, hon, getElem?_append] at hcall
        split at hcall
        · exact h.decided bucketKey i call hcall
        · rename_i hlen
          -- the new call stands behind those before
          obtain ⟨hzero, heq⟩ := List.getElem?_eq_some_iff.mp hcall
          rw [length_singleton] at hzero
          have hi : i = (callsOn hash bucketKey calls).length := by omega
          rw [getElem_singleton] at heq
          rw [← heq, hi]
          exact hallowed
      · rw [hoff key hkey, append_nil] at hcall
        exact h.decided key i call hcall
  · obtain ⟨error, hconsume⟩ := consume_of_not_valid hash hvalid binAt returnAt s.buckets
    rw [hconsume]
    have hcalls : ∀ key, callsOn hash key (calls ++ [⟨args, binAt, .error error⟩]) = callsOn hash key calls := by
      intro key
      rw [callsOn_append]
      have hnone : callsOn hash key [⟨args, binAt, .error error⟩] = [] := by
        unfold callsOn
        simp [RateCall.valid, hvalid]
      rw [hnone, append_nil]
    exact
      { expiry := h.expiry
        counted := fun key hclock => by
          rw [hcalls]
          exact h.counted key (by have : returnAt < key.windowEnd := hclock; omega)
        decided := fun key i call => by
          rw [hcalls]
          exact h.decided key i call }

theorem rateRun_invariant {run : List RateCall × RateStore} (h : RateRun hash run) : RateInv hash run.1 run.2 := by
  refine Reachable.invariant (I := fun run => RateInv hash run.1 run.2) ?_ ?_ h
  · rintro ⟨calls, s⟩ ⟨rfl, hempty⟩
    exact
      { expiry := fun key bucket hb => by
          rw [hempty] at hb
          cases hb
        counted := fun key _ => by
          rw [hempty]
          rfl
        decided := fun key i call hcall => by cases hcall }
  · rintro ⟨calls, s⟩ ⟨calls', s'⟩ hinv ⟨new, hstep, hcalls⟩
    cases hstep with
    | consume args binAt returnAt after inOrder =>
      rw [hcalls]
      exact RateInv.consume hinv after inOrder
    | cleanup readAt endAt inOrder =>
      rw [hcalls, append_nil]
      exact RateInv.cleanup hinv inOrder

/-! ## 6. The limit of a window -/

/-- The calls for a key and a window length that fall into one window. -/
def windowCalls (key : String) (windowMs windowStart : Int) (calls : List RateCall) : List RateCall :=
  calls.filter fun call =>
    call.args.key = key ∧ call.args.windowMs = windowMs ∧ dateBin (interval windowMs) call.binAt = windowStart

/-- All calls on the buckets of a key and a window length are calls for this key, with one limit. -/
def OnePolicy (hash : String → String) (key : String) (limit windowMs : Int) (calls : List RateCall) : Prop :=
  ∀ call ∈ calls, hash call.args.key = hash key → call.args.windowMs = windowMs →
    call.args.key = key ∧ call.args.limit = limit

variable {id : String}

theorem callsOn_eq_windowCalls (hpolicy : assertPolicy limit windowMs = .ok ())
    (hone : OnePolicy hash id limit windowMs calls) (windowStart : Int) :
    callsOn hash ⟨hash id, windowStart, windowMs⟩ calls = windowCalls id windowMs windowStart calls := by
  refine filter_congr fun call hmem => ?_
  rw [decide_eq_decide]
  unfold RateCall.bucketKey RateCall.valid
  rw [BucketKey.mk.injEq]
  constructor
  · rintro ⟨-, hhash, hstart, hms⟩
    exact ⟨(hone call hmem hhash hms).1, hms, by rw [← hms]; exact hstart⟩
  · rintro ⟨hkey, hms, hstart⟩
    have hhash : hash call.args.key = hash id := by rw [hkey]
    refine ⟨?_, hhash, ?_, hms⟩
    · rw [(hone call hmem hhash hms).2, hms]
      exact hpolicy
    · rw [hms]
      exact hstart

variable {α : Type*}

/-- At most a number of elements, when the first ones are those that count. -/
theorem length_filter_le_of_first {p : α → Bool} {xs : List α} {n : Nat}
    (h : ∀ i x, xs[i]? = some x → (p x = true ↔ i < n)) : (xs.filter p).length ≤ n := by
  have hrest : (xs.drop n).filter p = [] := by
    refine filter_eq_nil_iff.mpr fun x hx hp => ?_
    obtain ⟨i, hi⟩ := mem_iff_getElem?.mp hx
    rw [getElem?_drop] at hi
    have := (h _ x hi).mp hp
    omega
  calc (xs.filter p).length = ((xs.take n ++ xs.drop n).filter p).length := by rw [take_append_drop]
    _ = ((xs.take n).filter p).length := by rw [filter_append, hrest, append_nil]
    _ ≤ (xs.take n).length := length_filter_le _ _
    _ ≤ n := length_take_le n xs

theorem length_filter_le_add {p q r : α → Bool} (xs : List α)
    (h : ∀ x ∈ xs, p x = true → q x = true ∨ r x = true) :
    (xs.filter p).length ≤ (xs.filter q).length + (xs.filter r).length := by
  induction xs with
  | nil => exact Nat.zero_le _
  | cons x xs ih =>
    cases hp : p x <;> cases hq : q x <;> cases hr : r x <;> simp_all <;> omega

section

variable (hpolicy : assertPolicy limit windowMs = .ok ()) (h : RateRun hash (calls, s))
  (hone : OnePolicy hash id limit windowMs calls) (windowStart : Int)
include hpolicy h hone

/-- **The first calls of a window are the allowed ones.** -/
theorem allowed_iff_first (i : Nat) (call : RateCall)
    (hcall : (windowCalls id windowMs windowStart calls)[i]? = some call) :
    call.allowed = true ↔ (i : Int) < limit := by
  have hmem : call ∈ windowCalls id windowMs windowStart calls := mem_of_getElem? hcall
  unfold windowCalls at hmem
  rw [mem_filter, decide_eq_true_eq] at hmem
  obtain ⟨hcalls, hkey, hms, -⟩ := hmem
  have hlimit := (hone call hcalls (by rw [hkey]) hms).2
  rw [← callsOn_eq_windowCalls hpolicy hone] at hcall
  rw [← hlimit]
  exact (rateRun_invariant h).decided _ i call hcall

theorem allowed_length_le :
    (((windowCalls id windowMs windowStart calls).filter (·.allowed)).length : Int) ≤ limit := by
  obtain ⟨hlimit, -⟩ := assertPolicy_eq_ok.mp hpolicy
  have := length_filter_le_of_first (p := fun call : RateCall => call.allowed) (n := limit.toNat)
    fun i call hcall => (allowed_iff_first hpolicy h hone windowStart i call hcall).trans (by omega)
  omega

end

end

/-- **The limiter never over-admits.** In every run in which the buckets of a key and a window
    length are used with one limit: in each window exactly the first calls up to the limit are
    allowed, so never more than the limit, in any interval of a window's length at most twice the
    limit, and no clean-up takes the bucket of the current window. -/
theorem fixed_window_admits (hash : String → String) (id : String) (limit windowMs : Int)
    (hpolicy : assertPolicy limit windowMs = .ok ()) (calls : List RateCall) (s : RateStore)
    (h : RateRun hash (calls, s)) (hone : OnePolicy hash id limit windowMs calls) :
    (∀ windowStart (i : Nat) call, (windowCalls id windowMs windowStart calls)[i]? = some call →
      (call.allowed = true ↔ (i : Int) < limit)) ∧
    (∀ windowStart, (((windowCalls id windowMs windowStart calls).filter (·.allowed)).length : Int) ≤ limit) ∧
    (∀ a, ((calls.filter fun call => call.args.key = id ∧ call.args.windowMs = windowMs ∧ a ≤ call.binAt ∧
      call.binAt ≤ a + interval windowMs ∧ call.allowed).length : Int) ≤ 2 * limit) ∧
    (∀ readAt windowStart, windowStart = dateBin (interval windowMs) (readAt ⟨hash id, windowStart, windowMs⟩) →
      removeExpiredBuckets readAt s.buckets ⟨hash id, windowStart, windowMs⟩ =
        s.buckets ⟨hash id, windowStart, windowMs⟩) := by
  obtain ⟨-, -, hwindow, -⟩ := assertPolicy_eq_ok.mp hpolicy
  have hpos : 0 < interval windowMs := by
    unfold interval
    omega
  refine ⟨allowed_iff_first hpolicy h hone, allowed_length_le hpolicy h hone, fun a => ?_, ?_⟩
  · -- the interval meets the window of its begin and the next one
    have hsplit := length_filter_le_add (p := fun call : RateCall => call.args.key = id ∧
        call.args.windowMs = windowMs ∧ a ≤ call.binAt ∧ call.binAt ≤ a + interval windowMs ∧ call.allowed)
      (q := fun call => call.allowed && (decide (call.args.key = id ∧ call.args.windowMs = windowMs ∧
        dateBin (interval windowMs) call.binAt = dateBin (interval windowMs) a)))
      (r := fun call => call.allowed && (decide (call.args.key = id ∧ call.args.windowMs = windowMs ∧
        dateBin (interval windowMs) call.binAt = dateBin (interval windowMs) a + interval windowMs)))
      calls ?_
    · have hfirst := allowed_length_le hpolicy h hone (dateBin (interval windowMs) a)
      have hsecond := allowed_length_le hpolicy h hone (dateBin (interval windowMs) a + interval windowMs)
      unfold windowCalls at hfirst hsecond
      rw [filter_filter] at hfirst hsecond
      omega
    · intro call _ hcall
      rw [decide_eq_true_eq] at hcall
      obtain ⟨hkey, hms, hfrom, hto, hallowed⟩ := hcall
      simp only [Bool.and_eq_true, decide_eq_true_eq]
      rcases dateBin_interval hpos hfrom hto with hbin | hbin
      · exact .inl ⟨hallowed, hkey, hms, hbin⟩
      · exact .inr ⟨hallowed, hkey, hms, hbin⟩
  · intro readAt windowStart hcurrent
    refine removeExpiredBuckets_of_le ((rateRun_invariant h).expiry _) ?_
    have := lt_dateBin_add (t := readAt ⟨hash id, windowStart, windowMs⟩) hpos
    show _ ≤ windowStart + interval windowMs
    omega

/-- Two calls under a limit of one, a microsecond before and one after a boundary. -/
theorem fixed_window_admits_boundary :
    ∃ calls s, RateRun id (calls, s) ∧ (calls.map (·.allowed)) = [true, true] ∧
      (((calls.filter fun call => call.args.key = "k" ∧ call.args.windowMs = 1000 ∧ 999999 ≤ call.binAt ∧
        call.binAt ≤ 999999 + interval 1000 ∧ call.allowed).length : Int) ≤ 2 * 1) := by
  let args : ConsumeArgs := { key := "k", limit := 1, windowMs := 1000 }
  let first : RateStore := { clock := 0, buckets := fun _ => none }
  let second : RateStore :=
    { clock := 999999, buckets := (consume id args 999999 999999 first.buckets).1 }
  let third : RateStore :=
    { clock := 1000001, buckets := (consume id args 1000001 1000001 second.buckets).1 }
  let calls : List RateCall :=
    [⟨args, 999999, (consume id args 999999 999999 first.buckets).2⟩,
      ⟨args, 1000001, (consume id args 1000001 1000001 second.buckets).2⟩]
  have h0 : RateRun id ([], first) := Reachable.start ⟨rfl, rfl⟩
  have h1 : RateRun id (calls.take 1, second) :=
    Reachable.next h0 ⟨_, @RateStep.consume id first args 999999 999999 (by decide) (by decide), rfl⟩
  have h2 : RateRun id (calls, third) :=
    Reachable.next h1 ⟨_, @RateStep.consume id second args 1000001 1000001 (by decide) (by decide), rfl⟩
  have hone : OnePolicy id "k" 1 1000 calls := by
    intro call hcall _ _
    rcases mem_cons.mp hcall with rfl | hcall
    · exact ⟨rfl, rfl⟩
    · rw [mem_singleton.mp hcall]
      exact ⟨rfl, rfl⟩
  exact ⟨calls, third, h2, by decide +kernel, (fixed_window_admits id "k" 1 1000 rfl calls third h2 hone).2.2.1 999999⟩

end AdsManagement.Auth
