/-
  File:      Web/ApiRequest.lean
  Subject:   API REQUESTS AND THE SESSION EPOCH of the web client (lib/api.ts).

  `apiRequest` remembers the epoch it starts in and compares it after its awaits. It can be
  suspended in five places: the activity check, the fetch, the reading of a success, the reading
  of an error, and the refresh that all calls share. Login, logout and a change of the account
  or of its rights raise the epoch between any two steps. `JSON.parse` is a parameter; whether
  the activity check passes, what the server answers and how the refresh ends is left open.

  * `parseApiErrorPayload`, `apiErrorFromResponse`, `parseApiSuccess`;
  * `ApiPhase`, `ApiStep` -- the calls as processes;
  * `request_stays_in_epoch` -- a request is sent, and its value delivered, in the epoch of its
    call, as long as no call comes back from the refresh in another one;
  * `request_crosses_epoch` -- the retry after the refresh does not compare the epoch.
-/
import AdsManagement.Common.Json
import AdsManagement.Lib.Runs

namespace AdsManagement.Web

open Common Lib Function

/-! ## 1. Paths and responses -/

def authMutationPaths : List String := ["/auth/login", "/auth/refresh", "/auth/logout"]

def authPreflightExemptPaths : List String := authMutationPaths ++ ["/auth/me", "/auth/invitations/accept"]

def normalizePath (path : String) : String := String.ofList (path.toList.takeWhile (· ≠ '?'))

/-- `ApiError`. -/
structure RequestError where
  status : Nat
  message : String
  code : Option String

/-- A response; its text is missing where reading it fails. -/
structure Response where
  ok : Bool
  status : Nat
  text : Option String

/-- `/^[A-Z][A-Z0-9_]{0,99}$/`. -/
def isApiCode (s : String) : Bool :=
  match s.toList with
  | [] => false
  | c :: rest => c.isUpper && rest.length ≤ 99 && rest.all fun d => d.isUpper || d.isDigit || d = '_'

def safeApiCode : Option Json → Option String
  | some (.str s) => if isApiCode s then some s else none
  | _ => none

/-- `[\u0000-\u001f\u007f]`. -/
def isControl (c : Char) : Bool := c.toNat ≤ 0x1f || c.toNat = 0x7f

/-- A run of white space as one blank; the flag says that the last character was one. -/
def collapseSpaces : Bool → List Char → List Char
  | _, [] => []
  | afterSpace, c :: rest =>
    if isJsSpace c then if afterSpace then collapseSpaces true rest else ' ' :: collapseSpaces true rest
    else c :: collapseSpaces false rest

/-- All elements are texts. -/
def textItems : List Json → Option (List String)
  | [] => some []
  | .str s :: rest => (textItems rest).map (s :: ·)
  | _ :: _ => none

def safeApiMessage (value : Option Json) : Option String :=
  let source := match value with
    | some (.str s) => s
    | some (.arr items) => ((textItems items).map (String.intercalate " ")).getD ""
    | _ => ""
  let normalized := trimChars
    (collapseSpaces false (source.toList.map fun c => if isControl c then ' ' else c))
  if 0 < utf16Length normalized ∧ utf16Length normalized ≤ 500 then some (String.ofList normalized)
  else none

section Parsing

variable (parseJson : String → Option Json)

def parseApiErrorPayload (raw : String) : Option String × Option String :=
  match parseJson raw with
  | some (.obj payload) =>
    let details : Option Body := match Body.get payload "details" with
      | some (.obj fields) => some fields
      | _ => none
    let code := (safeApiCode (details.bind (Body.get · "code"))).or (safeApiCode (Body.get payload "code"))
    (code, safeApiMessage (Body.get payload "message"))
  | _ => (none, none)

def apiErrorFromResponse (response : Response) : RequestError :=
  let fallback := "요청을 처리하지 못했습니다. (HTTP " ++ toString response.status ++ ")"
  match response.text with
  | none => ⟨response.status, fallback, none⟩
  | some raw =>
    let parsed := parseApiErrorPayload parseJson raw
    ⟨response.status, parsed.2.getD fallback, parsed.1⟩

/-- `parseApiSuccess`: the value, which may be `undefined`, or a failure. -/
def parseApiSuccess (response : Response) : Option (Option Json) :=
  if response.status = 204 then some none
  else match response.text with
    | none => none
    | some raw => if raw.toList.length = 0 then some none else (parseJson raw).map some

end Parsing

/-- What `assertSessionEpoch` throws. -/
def authContextChanged : RequestError :=
  ⟨409, "인증 상태가 변경되어 응답을 폐기했습니다.", some "AUTH_CONTEXT_CHANGED"⟩

/-! ## 2. Calls -/

variable {π ω : Type}

/-- The arguments of a call of `apiRequest`, and the epoch in which it was made. -/
structure ApiCall (ω : Type) where
  path : String
  options : ω
  began : Nat

/-- Where a call stands. `requestEpoch` is the constant of the source, `retry` its third argument. -/
inductive ApiPhase (ω : Type) where
  | idle
  | checking (call : ApiCall ω) (requestEpoch : Nat) (retry : Bool)
  | fetching (call : ApiCall ω) (requestEpoch : Nat) (retry : Bool)
  | readingBody (call : ApiCall ω) (requestEpoch : Nat) (response : Response)
  | readingError (call : ApiCall ω) (requestEpoch : Nat) (retry : Bool) (response : Response)
  | awaitingRefresh (call : ApiCall ω) (promise : Nat)
  | delivered (call : ApiCall ω) (value : Option Json)
  | threw (call : ApiCall ω) (error : Option RequestError)

/-- The call and the epoch it compares with. -/
def ApiPhase.guarded : ApiPhase ω → Option (ApiCall ω × Nat)
  | .checking call requestEpoch _ => some (call, requestEpoch)
  | .fetching call requestEpoch _ => some (call, requestEpoch)
  | .readingBody call requestEpoch _ => some (call, requestEpoch)
  | .readingError call requestEpoch _ _ => some (call, requestEpoch)
  | _ => none

inductive ApiEvent (ω : Type) where
  | quiet
  | sent (call : ApiCall ω)
  | delivered (call : ApiCall ω) (value : Option Json)

structure ApiState (π ω : Type) where
  sessionEpoch : Nat
  /-- `refreshPromise`, by its number. -/
  refreshPromise : Option Nat
  nextPromise : Nat
  /-- The promises that are settled: fulfilled or not. -/
  settled : Nat → Option Bool
  phase : π → ApiPhase ω

section Steps

variable [DecidableEq π]

def ApiState.goto (s : ApiState π ω) (p : π) (phase : ApiPhase ω) : ApiState π ω :=
  { s with phase := update s.phase p phase }

/-- The start of `apiRequest`, up to its first await. -/
def ApiState.enter (s : ApiState π ω) (p : π) (call : ApiCall ω) (retry : Bool) : ApiState π ω :=
  if normalizePath call.path ∈ authPreflightExemptPaths then
    s.goto p (.fetching call s.sessionEpoch retry)
  else s.goto p (.checking call s.sessionEpoch retry)

def enterEvent (call : ApiCall ω) : ApiEvent ω :=
  if normalizePath call.path ∈ authPreflightExemptPaths then .sent call else .quiet

/-- `refreshAccessToken`: the promise that is awaited. -/
def ApiState.refresh (s : ApiState π ω) : ApiState π ω × Nat :=
  match s.refreshPromise with
  | some promise => (s, promise)
  | none => ({ s with refreshPromise := some s.nextPromise, nextPromise := s.nextPromise + 1 },
      s.nextPromise)

/-- After the error was read, in the epoch of the request. -/
def ApiState.afterError (s : ApiState π ω) (p : π) (call : ApiCall ω) (retry : Bool)
    (error : RequestError) : ApiState π ω :=
  if error.code = some "ACCESS_TOKEN_EXPIRED" ∧ retry = false ∧
      normalizePath call.path ∉ authMutationPaths then
    s.refresh.1.goto p (.awaitingRefresh call s.refresh.2)
  else s.goto p (.threw call (some error))

inductive ApiStep (parseJson : String → Option Json) (s : ApiState π ω) :
    ApiEvent ω → ApiState π ω → Prop
  -- login, logout, another account or other rights
  | invalidate : ApiStep parseJson s .quiet { s with sessionEpoch := s.sessionEpoch + 1 }
  | start (p : π) (path : String) (options : ω) (h : s.phase p = .idle) :
      ApiStep parseJson s (enterEvent ⟨path, options, s.sessionEpoch⟩)
        (s.enter p ⟨path, options, s.sessionEpoch⟩ false)
  | checked (p : π) (call : ApiCall ω) (e : Nat) (retry : Bool) (h : s.phase p = .checking call e retry)
      (he : e = s.sessionEpoch) :
      ApiStep parseJson s (.sent call) (s.goto p (.fetching call e retry))
  | checkRejects (p : π) (call : ApiCall ω) (e : Nat) (retry : Bool)
      (h : s.phase p = .checking call e retry) :
      ApiStep parseJson s .quiet (s.goto p (.threw call none))
  | responds (p : π) (call : ApiCall ω) (e : Nat) (retry : Bool) (response : Response)
      (h : s.phase p = .fetching call e retry) (he : e = s.sessionEpoch) :
      ApiStep parseJson s .quiet (s.goto p
        (if response.ok then .readingBody call e response else .readingError call e retry response))
  | fetchRejects (p : π) (call : ApiCall ω) (e : Nat) (retry : Bool)
      (h : s.phase p = .fetching call e retry) :
      ApiStep parseJson s .quiet (s.goto p (.threw call none))
  | bodyRead (p : π) (call : ApiCall ω) (e : Nat) (response : Response) (value : Option Json)
      (h : s.phase p = .readingBody call e response) (he : e = s.sessionEpoch)
      (hv : parseApiSuccess parseJson response = some value) :
      ApiStep parseJson s (.delivered call value) (s.goto p (.delivered call value))
  | bodyRejects (p : π) (call : ApiCall ω) (e : Nat) (response : Response)
      (h : s.phase p = .readingBody call e response) (hv : parseApiSuccess parseJson response = none) :
      ApiStep parseJson s .quiet (s.goto p (.threw call none))
  | errorRead (p : π) (call : ApiCall ω) (e : Nat) (retry : Bool) (response : Response)
      (h : s.phase p = .readingError call e retry response) (he : e = s.sessionEpoch) :
      ApiStep parseJson s .quiet (s.afterError p call retry (apiErrorFromResponse parseJson response))
  -- `assertSessionEpoch` throws, after any await that it follows
  | contextChanged (p : π) (call : ApiCall ω) (e : Nat) (h : (s.phase p).guarded = some (call, e))
      (he : e ≠ s.sessionEpoch) :
      ApiStep parseJson s .quiet (s.goto p (.threw call (some authContextChanged)))
  | settle (promise : Nat) (fulfilled : Bool) (h : s.refreshPromise = some promise) :
      ApiStep parseJson s .quiet
        { s with refreshPromise := none, settled := update s.settled promise (some fulfilled) }
  | refreshed (p : π) (call : ApiCall ω) (promise : Nat) (h : s.phase p = .awaitingRefresh call promise)
      (hd : s.settled promise = some true) :
      ApiStep parseJson s (enterEvent call) (s.enter p call true)
  | refreshRejects (p : π) (call : ApiCall ω) (promise : Nat)
      (h : s.phase p = .awaitingRefresh call promise) (hd : s.settled promise = some false) :
      ApiStep parseJson s .quiet (s.goto p (.threw call none))

end Steps

/-- No call, and no refresh. -/
structure ApiStart (s : ApiState π ω) : Prop where
  refreshPromise : s.refreshPromise = none
  settled : ∀ promise, s.settled promise = none
  phase : ∀ p, s.phase p = .idle

/-! ## 3. Calls and epochs -/

/-- A call comes back from a refresh only in the epoch in which it was made. -/
def ResumesInEpoch (s s' : ApiState π ω) : Prop :=
  ∀ p call promise, s.phase p = .awaitingRefresh call promise → s.settled promise = some true →
    s'.phase p = s.phase p ∨ call.began = s.sessionEpoch

/-- **The epoch a call compares with is the one in which it was made.** -/
def OwnEpoch (s : ApiState π ω) : Prop :=
  ∀ p call e, (s.phase p).guarded = some (call, e) → call.began = e

variable {parseJson : String → Option Json} {s s' : ApiState π ω} {event : ApiEvent ω}

theorem OwnEpoch.start (h : ApiStart s) : OwnEpoch s := by
  intro p call e hp
  rw [h.phase p] at hp
  cases hp

section Invariant

variable [DecidableEq π]
variable {p : π}

theorem OwnEpoch.goto (h : OwnEpoch s) {phase : ApiPhase ω}
    (hp : ∀ call e, phase.guarded = some (call, e) → call.began = e) : OwnEpoch (s.goto p phase) := by
  intro q call e hq
  rcases update_reads ApiPhase.guarded hq with ⟨-, hq'⟩ | ⟨-, hq'⟩
  · exact hp call e hq'
  · exact h q call e hq'

variable {call : ApiCall ω} {retry : Bool}

theorem OwnEpoch.enter (h : OwnEpoch s) (hc : call.began = s.sessionEpoch) :
    OwnEpoch (s.enter p call retry) := by
  unfold ApiState.enter
  split
  · refine h.goto fun call' e he => ?_
    cases he
    exact hc
  · refine h.goto fun call' e he => ?_
    cases he
    exact hc

omit [DecidableEq π] in
theorem ApiState.refresh_phase (s : ApiState π ω) : s.refresh.1.phase = s.phase := by
  unfold ApiState.refresh
  split <;> rfl

theorem OwnEpoch.afterError (h : OwnEpoch s) {error : RequestError} :
    OwnEpoch (s.afterError p call retry error) := by
  unfold ApiState.afterError
  split
  · have hr : OwnEpoch s.refresh.1 := by
      unfold OwnEpoch
      rw [s.refresh_phase]
      exact h
    exact hr.goto fun _ _ he => by cases he
  · exact h.goto fun _ _ he => by cases he

variable {promise : Nat}

/-- A call that comes back from the refresh moves. -/
theorem enter_phase_ne :
    (s.enter p call retry).phase p ≠ .awaitingRefresh call promise := by
  unfold ApiState.enter
  split
  · simp [ApiState.goto]
  · simp [ApiState.goto]

/-- Under the condition, a call that comes back is in its epoch. -/
theorem ResumesInEpoch.began (hc : ResumesInEpoch s (s.enter p call true))
    (hp : s.phase p = .awaitingRefresh call promise) (hd : s.settled promise = some true) :
    call.began = s.sessionEpoch := by
  rcases hc p call promise hp hd with hsame | hbegan
  · exact absurd (hsame.trans hp) enter_phase_ne
  · exact hbegan

theorem OwnEpoch.step (h : OwnEpoch s) (hs : ApiStep parseJson s event s') (hc : ResumesInEpoch s s') :
    OwnEpoch s' := by
  cases hs with
  | invalidate | settle promise fulfilled hp => exact h
  | start p path options hp => exact h.enter rfl
  | checked p call e retry hp he =>
    refine h.goto fun call' e' he' => ?_
    cases he'
    exact h p call e (by rw [hp]; rfl)
  | responds p call e retry response hp he =>
    refine h.goto fun call' e' he' => ?_
    have hown : call.began = e := h p call e (by rw [hp]; rfl)
    split at he'
    · cases he'
      exact hown
    · cases he'
      exact hown
  | errorRead p call e retry response hp he => exact h.afterError
  | refreshed p call promise hp hd => exact h.enter (hc.began hp hd)
  | checkRejects | fetchRejects | bodyRead | bodyRejects | contextChanged | refreshRejects =>
    exact h.goto fun _ _ he => by cases he

theorem enterEvent_ne_delivered (call call' : ApiCall ω) (value : Option Json) :
    enterEvent call ≠ .delivered call' value := by
  unfold enterEvent
  split
  · simp
  · simp

theorem eq_of_enterEvent {call' : ApiCall ω} (h : enterEvent call = .sent call') : call = call' := by
  unfold enterEvent at h
  split at h
  · exact ApiEvent.sent.inj h
  · cases h

/-- **A call stays in its epoch.** In every run in which calls come back from the refresh in their
    own epoch, every request that is sent and every value that is delivered belongs to a call
    made in the epoch of that moment. -/
theorem request_stays_in_epoch (parseJson : String → Option Json) {s : ApiState π ω}
    (hr : Reachable ApiStart
      (When (fun s s' => ∃ event, ApiStep parseJson s event s') ResumesInEpoch) s)
    {event : ApiEvent ω} {s' : ApiState π ω} (hs : ApiStep parseJson s event s')
    (hc : ResumesInEpoch s s') :
    (∀ call, event = .sent call → call.began = s.sessionEpoch) ∧
      ∀ call value, event = .delivered call value → call.began = s.sessionEpoch := by
  have hown : OwnEpoch s := by
    refine hr.invariant (fun _ h => OwnEpoch.start h) ?_
    rintro s s' h ⟨⟨event, hs⟩, hc⟩
    exact h.step hs hc
  cases hs with
  | start p path options hp =>
    refine ⟨fun call he => ?_, fun call value he => absurd he (enterEvent_ne_delivered _ _ _)⟩
    rw [← eq_of_enterEvent he]
  | checked p call e retry hp he =>
    refine ⟨fun call' hev => ?_, nofun⟩
    cases hev
    rw [← he]
    exact hown p call e (by rw [hp]; rfl)
  | bodyRead p call e response value hp he hv =>
    refine ⟨nofun, fun call' value' hev => ?_⟩
    cases hev
    rw [← he]
    exact hown p call e (by rw [hp]; rfl)
  | refreshed p call promise hp hd =>
    refine ⟨fun call' he => ?_, fun call' value he => absurd he (enterEvent_ne_delivered _ _ _)⟩
    rw [← eq_of_enterEvent he]
    exact hc.began hp hd
  | _ => exact ⟨nofun, nofun⟩

end Invariant

/-! ## 4. A mutation sent in another session -/

/-- The body of the 401 response, and `JSON.parse` of it. -/
def expiredBody : String := "\x7b\"code\":\"ACCESS_TOKEN_EXPIRED\"\x7d"

def parseExpiredBody (raw : String) : Option Json :=
  if raw = expiredBody then some (.obj [("code", .str "ACCESS_TOKEN_EXPIRED")]) else none

def expiredResponse : Response := ⟨false, 401, some expiredBody⟩

theorem expiredResponse_code :
    (apiErrorFromResponse parseExpiredBody expiredResponse).code = some "ACCESS_TOKEN_EXPIRED" := by
  decide +kernel

/-- A tab that was just opened. -/
def newTab : ApiState Unit Unit := ⟨0, none, 0, fun _ => none, fun _ => .idle⟩

/-- A mutation whose response ends with `ACCESS_TOKEN_EXPIRED`. -/
def mutation : ApiCall Unit := ⟨"/reports/exports", (), 0⟩

theorem enter_mutation (s : ApiState Unit Unit) (retry : Bool) :
    s.enter () mutation retry = s.goto () (.checking mutation s.sessionEpoch retry) := by
  unfold ApiState.enter
  rw [if_neg (by decide +kernel)]

/-- The call is made, answered with `ACCESS_TOKEN_EXPIRED`, and waits for the refresh. -/
theorem reachable_awaiting :
    ∃ s : ApiState Unit Unit,
      Reachable ApiStart
        (When (fun s s' => ∃ event, ApiStep parseExpiredBody s event s') ResumesInEpoch) s ∧
      s.sessionEpoch = 0 ∧ s.refreshPromise = some 0 ∧ s.phase () = .awaitingRefresh mutation 0 := by
  let s1 := newTab.goto () (.checking mutation 0 false)
  let s2 := s1.goto () (.fetching mutation 0 false)
  let s3 := s2.goto () (.readingError mutation 0 false expiredResponse)
  let s4 := s3.refresh.1.goto () (.awaitingRefresh mutation s3.refresh.2)
  have h0 : Reachable ApiStart
      (When (fun s s' => ∃ event, ApiStep parseExpiredBody s event s') ResumesInEpoch) newTab :=
    .start ⟨rfl, fun _ => rfl, fun _ => rfl⟩
  have hstart : ApiStep parseExpiredBody newTab (enterEvent mutation) s1 := by
    have hcall : ApiStep parseExpiredBody newTab (enterEvent mutation) (newTab.enter () mutation false) :=
      .start () mutation.path () rfl
    rwa [enter_mutation] at hcall
  have h1 := h0.next (t := s1) ⟨⟨_, hstart⟩, nofun⟩
  have h2 := h1.next (t := s2) ⟨⟨_, .checked () mutation 0 false rfl rfl⟩, nofun⟩
  have h3 := h2.next (t := s3) ⟨⟨_, .responds () mutation 0 false expiredResponse rfl rfl⟩, nofun⟩
  have herror : s3.afterError () mutation false (apiErrorFromResponse parseExpiredBody expiredResponse) =
      s4 := by
    exact if_pos ⟨expiredResponse_code, rfl, by decide +kernel⟩
  have hread : ApiStep parseExpiredBody s3 .quiet s4 := by
    rw [← herror]
    exact .errorRead () mutation 0 false expiredResponse rfl rfl
  have h4 := h3.next (t := s4) ⟨⟨_, hread⟩, nofun⟩
  exact ⟨s4, h4, rfl, rfl, rfl⟩

/-- The retry in the same session. -/
theorem request_stays_in_epoch_of_retry :
    ∃ s s' : ApiState Unit Unit,
      Reachable ApiStart
        (When (fun s s' => ∃ event, ApiStep parseExpiredBody s event s') ResumesInEpoch) s ∧
      ApiStep parseExpiredBody s (.sent mutation) s' ∧ mutation.began = s.sessionEpoch := by
  obtain ⟨s, hr, hepoch, hpromise, hphase⟩ := reachable_awaiting
  let s1 : ApiState Unit Unit :=
    { s with refreshPromise := none, settled := update s.settled 0 (some true) }
  let s2 := s1.goto () (.checking mutation s1.sessionEpoch true)
  have h1 := hr.next (t := s1) ⟨⟨_, .settle 0 true hpromise⟩, fun _ _ _ _ _ => .inl rfl⟩
  have hstep : ApiStep parseExpiredBody s1 (enterEvent mutation) s2 := by
    have hback : ApiStep parseExpiredBody s1 (enterEvent mutation) (s1.enter () mutation true) :=
      .refreshed () mutation 0 hphase rfl
    rwa [enter_mutation] at hback
  have h2 := h1.next (t := s2) ⟨⟨_, hstep⟩, fun p call promise hp _ => .inr ?_⟩
  · have hsent : ApiStep parseExpiredBody s2 (.sent mutation)
        (s2.goto () (.fetching mutation s2.sessionEpoch true)) :=
      .checked () mutation _ true rfl rfl
    refine ⟨s2, _, h2, hsent, ?_⟩
    exact (request_stays_in_epoch parseExpiredBody h2 hsent nofun).1 mutation rfl
  · have : call = mutation := by
      have := hp.symm.trans hphase
      cases this
      rfl
    rw [this]
    exact hepoch.symm

/-- **Sent in another session**: while the call waits for the refresh, the user logs out and
    another one logs in; the retry takes the new epoch for its own. -/
theorem request_crosses_epoch :
    ¬ ∀ s : ApiState Unit Unit,
      Reachable ApiStart (fun s s' => ∃ event, ApiStep parseExpiredBody s event s') s →
      ∀ event s', ApiStep parseExpiredBody s event s' →
        (∀ call, event = .sent call → call.began = s.sessionEpoch) ∧
          ∀ call value, event = .delivered call value → call.began = s.sessionEpoch := by
  intro hclaim
  obtain ⟨s, hr, hepoch, hpromise, hphase⟩ := reachable_awaiting
  let s1 : ApiState Unit Unit := { s with sessionEpoch := s.sessionEpoch + 1 }
  let s2 : ApiState Unit Unit :=
    { s1 with refreshPromise := none, settled := update s1.settled 0 (some true) }
  let s3 := s2.goto () (.checking mutation s2.sessionEpoch true)
  have h1 := hr.of_when.next (t := s1) ⟨_, .invalidate⟩
  have h2 := h1.next (t := s2) ⟨_, .settle 0 true hpromise⟩
  have hstep : ApiStep parseExpiredBody s2 (enterEvent mutation) s3 := by
    have hback : ApiStep parseExpiredBody s2 (enterEvent mutation) (s2.enter () mutation true) :=
      .refreshed () mutation 0 hphase rfl
    rwa [enter_mutation] at hback
  have h3 := h2.next (t := s3) ⟨_, hstep⟩
  have hsame := (hclaim s3 h3 _ _ (.checked () mutation _ true rfl rfl)).1 mutation rfl
  -- made in the epoch 0, sent in the epoch 1
  have hother : (0 : Nat) = s.sessionEpoch + 1 := hsame
  omega

end AdsManagement.Web
