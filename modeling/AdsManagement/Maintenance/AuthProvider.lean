/-
  File:      Maintenance/AuthProvider.lean
  Subject:   THE IDENTITIES OF THE PROVIDER and the operations of maintenance/auth/provider.ts on
             them.

  An operation is a function of the table of identities, with the checks the bound provider and
  its transport make on what they send and receive; whether the provider answers is decided where
  it is called. The keys that make an operation repeatable are hexadecimal digests with a label
  and pass their check; of a receipt only the ids are kept.

  * `normalizeProviderEmail`, `isOpaqueId` -- the texts the operations take;
  * `findUserById`, `findUserByEmail`, `inviteUser`, `setUserDisabled`, `removeOwnedInvitation`;
  * `findUserById_eq_ok`, `findExactEmail_eq_ok` -- a search that returned says what the table holds;
  * `setUserDisabled_eq_ok`, `inviteUser_eq_ok` -- what one that returned has done.
-/
import AdsManagement.Common.Text
import AdsManagement.Lib.Chunks
import AdsManagement.Lib.Fallible
import AdsManagement.Lib.LastOfKind

namespace AdsManagement.Maintenance

open Common Lib List

/-! ## 1. Texts -/

/-- `^[A-Za-z0-9][A-Za-z0-9._:-]{7,127}$`. -/
def isOpaqueId (s : String) : Bool :=
  match s.toList with
  | [] => false
  | c :: rest => c.isAlphanum && 7 ≤ rest.length && rest.length ≤ 127 &&
      rest.all fun d => d.isAlphanum || ['.', '_', ':', '-'].contains d

def isPrintableAscii (c : Char) : Bool := 0x21 ≤ c.toNat && c.toNat ≤ 0x7e

def normalizeProviderEmail (value : String) : Except String String :=
  let normalized := (trimChars value.toList).map lowerChar
  if normalized.length < 3 || normalized.length > 254 || !normalized.all isPrintableAscii then
    .error "AUTH_EMAIL_INVALID"
  else if normalized.count '@' ≠ 1 || normalized.head? = some '@' || normalized.getLast? = some '@' then
    .error "AUTH_EMAIL_INVALID"
  else .ok (String.ofList normalized)

/-! ## 2. Identities -/

/-- A user of the provider. An identity without an e-mail address has none that is a text;
    `disabled` is a ban that has not ended. -/
structure ProviderIdentity where
  id : String
  email : Option String
  emailVerified : Bool
  disabled : Bool
  maintenance_invite_owner : Option String

/-- The identities, and the ids that are given to those who come. -/
structure Identities where
  rows : List ProviderIdentity
  unique : (rows.map ProviderIdentity.id).Nodup
  issued : List String

structure AuthProviderUser where
  id : String
  email : String
  emailVerified : Bool
  disabled : Bool

structure ProviderInviteReceipt where
  userId : String
  invitationId : String

/-- `mapSupabaseUser`, and `validateProviderUser` in it. -/
def mapSupabaseUser (user : ProviderIdentity) : Except String AuthProviderUser :=
  match user.email with
  | none => .error "AUTH_ADMIN_PROVIDER_RESPONSE_INVALID"
  | some email =>
    if !isOpaqueId user.id then .error "AUTH_PROVIDER_RESPONSE_INVALID"
    else (normalizeProviderEmail email).map fun email =>
      { id := user.id, email, emailVerified := user.emailVerified, disabled := user.disabled }

namespace Identities

def find (identities : Identities) (id : String) : Option ProviderIdentity :=
  identities.rows.find? fun user => user.id = id

/-- One identity written. -/
def put (user : ProviderIdentity) (identities : Identities) : Identities :=
  { identities with
    rows := replaceRow ProviderIdentity.id user identities.rows
    unique := by rw [replaceRow_keys]; exact identities.unique }

def remove (id : String) (identities : Identities) : Identities :=
  { identities with
    rows := identities.rows.filter fun user => user.id ≠ id
    unique := identities.unique.sublist (List.filter_sublist.map _) }

/-- A new identity under the next id, which no other has. -/
def add (email : String) (owner : String) (identities : Identities) :
    Option (ProviderIdentity × Identities) :=
  match identities.issued with
  | [] => none
  | id :: issued =>
    let user : ProviderIdentity :=
      { id, email := some email, emailVerified := false, disabled := false,
        maintenance_invite_owner := some owner }
    if h : ((identities.rows ++ [user]).map ProviderIdentity.id).Nodup then
      some (user, { rows := identities.rows ++ [user], unique := h, issued })
    else none

end Identities

/-! ## 3. Operations -/

def findUserById (identities : Identities) (userId : String) : Except String (Option AuthProviderUser) :=
  if !isOpaqueId userId then .error "AUTH_USER_ID_INVALID"
  else
    match identities.find userId with
    | none => .ok none
    | some user => (mapSupabaseUser user).map some

/-- `typeof user.email === "string" && normalizeProviderEmail(user.email) === normalizedEmail`. -/
def isExactEmail (normalizedEmail : String) (user : ProviderIdentity) : Except String Bool :=
  match user.email with
  | none => .ok false
  | some email => (normalizeProviderEmail email).map fun email => decide (email = normalizedEmail)

/-- `filter` of a page. -/
def matchesInPage (normalizedEmail : String) : List ProviderIdentity → Except String (List ProviderIdentity)
  | [] => .ok []
  | user :: rest => do
    let exact ← isExactEmail normalizedEmail user
    let others ← matchesInPage normalizedEmail rest
    return if exact then user :: others else others

/-- The search from one page on, with the number of pages it may still ask for. -/
def findInPages (normalizedEmail : String) : Nat → List (List ProviderIdentity) →
    Except String (Option AuthProviderUser)
  | _, [] => .ok none
  | 0, _ :: _ => .error "AUTH_ADMIN_LIST_LIMIT_EXCEEDED"
  | pages + 1, page :: rest => do
    let found ← matchesInPage normalizedEmail page
    match found with
    | [] => findInPages normalizedEmail pages rest
    | [user] => (mapSupabaseUser user).map some
    | _ => throw "AUTH_ADMIN_EMAIL_DUPLICATE"

def findExactEmail (identities : Identities) (normalizedEmail : String) :
    Except String (Option AuthProviderUser) :=
  findInPages normalizedEmail 100 (chunks 100 identities.rows)

def findUserByEmail (identities : Identities) (normalizedEmail : String) :
    Except String (Option AuthProviderUser) := do
  findExactEmail identities (← normalizeProviderEmail normalizedEmail)

/-- `inviteUser` under a key whose ownership value is `owner`. An invitation that has been sent may
    still be answered by an error. -/
def inviteUser (normalizedEmail owner : String) (identities : Identities) :
    Except String ProviderInviteReceipt × Identities :=
  match normalizeProviderEmail normalizedEmail with
  | .error e => (.error e, identities)
  | .ok email =>
    match findExactEmail identities email with
    | .error e => (.error e, identities)
    | .ok (some existing) =>
      if (identities.find existing.id).bind (·.maintenance_invite_owner) ≠ some owner then
        (.error "AUTH_ADMIN_INVITE_IDEMPOTENCY_CONFLICT", identities)
      else (.ok ⟨existing.id, existing.id⟩, identities)
    | .ok none =>
      match identities.add email owner with
      | none => (.error "AUTH_ADMIN_PROVIDER_OPERATION_FAILED", identities)
      | some (user, identities) =>
        ((mapSupabaseUser user).map fun user => ⟨user.id, user.id⟩, identities)

def setUserDisabled (userId : String) (disabled : Bool) (identities : Identities) :
    Except String String × Identities :=
  if !isOpaqueId userId then (.error "AUTH_USER_ID_INVALID", identities)
  else
    match identities.find userId with
    | none => (.error "AUTH_ADMIN_UPDATE_RESPONSE_INVALID", identities)
    | some user =>
      match mapSupabaseUser user with
      | .error e => (.error e, identities)
      | .ok current =>
        if current.disabled = disabled then (.ok current.id, identities)
        else (.ok current.id, identities.put { user with disabled })

def removeOwnedInvitation (invitationId owner : String) (identities : Identities) :
    Except String String × Identities :=
  if !isOpaqueId invitationId then (.error "AUTH_INVITATION_ID_INVALID", identities)
  else if (identities.find invitationId).bind (·.maintenance_invite_owner) ≠ some owner then
    (.error "AUTH_ADMIN_INVITATION_OWNERSHIP_MISMATCH", identities)
  else (.ok invitationId, identities.remove invitationId)

/-! ## 4. What they find and leave -/

/-- An identity with an address, as the search compares them. -/
def hasEmail (normalizedEmail : String) (user : ProviderIdentity) : Bool :=
  match isExactEmail normalizedEmail user with
  | .ok found => found
  | .error _ => false

theorem mapSupabaseUser_eq_ok {identity : ProviderIdentity} {user : AuthProviderUser}
    (h : mapSupabaseUser identity = .ok user) :
    isOpaqueId identity.id = true ∧ user.id = identity.id ∧ user.emailVerified = identity.emailVerified ∧
      user.disabled = identity.disabled ∧ hasEmail user.email identity = true := by
  unfold mapSupabaseUser at h
  split at h
  · cases h
  · rename_i email he
    obtain ⟨hid, h⟩ := ite_error_eq_ok.mp h
    obtain ⟨normalized, hn, rfl⟩ := map_eq_ok.mp h
    refine ⟨by simpa using hid, rfl, rfl, rfl, ?_⟩
    unfold hasEmail isExactEmail
    rw [he]
    dsimp only
    rw [hn]
    exact decide_eq_true rfl

namespace Identities

variable {identities : Identities} {user : ProviderIdentity} {id : String}

theorem find_eq_some (h : identities.find id = some user) : user ∈ identities.rows ∧ user.id = id :=
  ⟨mem_of_find?_eq_some h, by simpa using find?_some h⟩

theorem find_of_mem (h : user ∈ identities.rows) : identities.find user.id = some user := by
  cases hf : identities.find user.id with
  | none =>
    have := find?_eq_none.mp hf user h
    simp at this
  | some found =>
    obtain ⟨hm, hid⟩ := find_eq_some hf
    rw [inj_on_of_nodup_map identities.unique hm h hid]

theorem mem_put {before : ProviderIdentity} (h : before ∈ identities.rows) (hid : user.id = before.id) :
    user ∈ (identities.put user).rows :=
  mem_replaceRow_self h hid.symm

end Identities

variable {identities identities' : Identities} {normalizedEmail : String}
variable {found : Option AuthProviderUser} {userId : String}

/-- **A look-up by id** that returned says what the table holds. -/
theorem findUserById_eq_ok (h : findUserById identities userId = .ok found) :
    (found = none ∧ identities.find userId = none) ∨
      ∃ identity user, found = some user ∧ identities.find userId = some identity ∧
        mapSupabaseUser identity = .ok user := by
  obtain ⟨-, h⟩ := ite_error_eq_ok.mp h
  split at h
  · rename_i hf
    cases h
    exact .inl ⟨rfl, hf⟩
  · rename_i identity hf
    obtain ⟨user, hu, rfl⟩ := map_eq_ok.mp h
    exact .inr ⟨identity, user, rfl, hf, hu⟩

theorem matchesInPage_eq_ok {l found : List ProviderIdentity}
    (h : matchesInPage normalizedEmail l = .ok found) : found = l.filter (hasEmail normalizedEmail) := by
  induction l generalizing found with
  | nil =>
    cases h
    rfl
  | cons user rest ih =>
    obtain ⟨exact, he, h⟩ := bind_eq_ok.mp h
    obtain ⟨others, ho, h⟩ := bind_eq_ok.mp h
    have hhas : hasEmail normalizedEmail user = exact := by
      unfold hasEmail
      rw [he]
    cases h
    rw [filter_cons, hhas, ← ih ho]

theorem findInPages_eq_ok {pages : Nat} {data : List (List ProviderIdentity)}
    (h : findInPages normalizedEmail pages data = .ok found) :
    (found = none ∧ data.flatten.find? (hasEmail normalizedEmail) = none) ∨
      ∃ identity user, found = some user ∧
        data.flatten.find? (hasEmail normalizedEmail) = some identity ∧
        mapSupabaseUser identity = .ok user := by
  induction data generalizing pages with
  | nil =>
    cases pages <;> cases h <;> exact .inl ⟨rfl, rfl⟩
  | cons page rest ih =>
    cases pages with
    | zero => cases h
    | succ pages =>
      obtain ⟨matching, hm, h⟩ := bind_eq_ok.mp h
      have hfirst : page.find? (hasEmail normalizedEmail) = matching.head? := by
        rw [matchesInPage_eq_ok hm, head?_filter]
      rw [flatten_cons, find?_append, hfirst]
      match matching, h with
      | [], h => exact ih h
      | [identity], h =>
        obtain ⟨user, hu, rfl⟩ := map_eq_ok.mp h
        exact .inr ⟨identity, user, rfl, rfl, hu⟩

/-- **A search by address** that returned has looked at every identity. -/
theorem findExactEmail_eq_ok (h : findExactEmail identities normalizedEmail = .ok found) :
    (found = none ∧ identities.rows.find? (hasEmail normalizedEmail) = none) ∨
      ∃ identity user, found = some user ∧
        identities.rows.find? (hasEmail normalizedEmail) = some identity ∧
        mapSupabaseUser identity = .ok user := by
  have hpages := findInPages_eq_ok h
  rwa [flatten_chunks (by decide)] at hpages

theorem findUserByEmail_eq (hn : normalizeProviderEmail normalizedEmail = .ok normalizedEmail) :
    findUserByEmail identities normalizedEmail = findExactEmail identities normalizedEmail := by
  unfold findUserByEmail
  rw [hn]
  rfl

/-- **A ban** that returned is in force. -/
theorem setUserDisabled_eq_ok {returned : String}
    (h : setUserDisabled userId true identities = (.ok returned, identities')) :
    ∃ identity, identities'.find userId = some identity ∧ identity.disabled = true := by
  unfold setUserDisabled at h
  split at h
  · cases h
  · split at h
    · cases h
    · rename_i identity hf
      split at h
      · cases h
      · rename_i user hu
        obtain ⟨hmem, rfl⟩ := Identities.find_eq_some hf
        split at h
        · rename_i hd
          cases h
          exact ⟨identity, hf, (mapSupabaseUser_eq_ok hu).2.2.2.1.symm.trans hd⟩
        · cases h
          have hput : { identity with disabled := true } ∈
              (identities.put { identity with disabled := true }).rows :=
            Identities.mem_put hmem rfl
          have hfind := Identities.find_of_mem hput
          exact ⟨_, hfind, rfl⟩

/-- **An invitation** that returned is for an identity of the address. -/
theorem inviteUser_eq_ok {owner : String} {receipt : ProviderInviteReceipt}
    (hn : normalizeProviderEmail normalizedEmail = .ok normalizedEmail)
    (h : inviteUser normalizedEmail owner identities = (.ok receipt, identities')) :
    ∃ identity ∈ identities'.rows, identity.id = receipt.userId ∧
      hasEmail normalizedEmail identity = true := by
  unfold inviteUser at h
  rw [hn] at h
  dsimp only at h
  split at h
  · cases h
  · rename_i existing hf
    split at h
    · cases h
    · cases h
      rcases findExactEmail_eq_ok hf with ⟨h, -⟩ | ⟨identity, user, hu, hfound, hmap⟩
      · cases h
      · cases hu
        exact ⟨identity, mem_of_find?_eq_some hfound, (mapSupabaseUser_eq_ok hmap).2.1.symm,
          find?_some hfound⟩
  · split at h
    · cases h
    · rename_i user added ha
      obtain ⟨hr, rfl⟩ := Prod.mk.inj h
      obtain ⟨mapped, hm, rfl⟩ := map_eq_ok.mp hr
      unfold Identities.add at ha
      split at ha
      · cases ha
      · dsimp only at ha
        split at ha
        · cases ha
          refine ⟨_, mem_append_right _ (mem_singleton_self _),
            (mapSupabaseUser_eq_ok hm).2.1.symm, ?_⟩
          unfold hasEmail isExactEmail
          dsimp only
          rw [hn]
          exact decide_eq_true rfl
        · cases ha

end AdsManagement.Maintenance
