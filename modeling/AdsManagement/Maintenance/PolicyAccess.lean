/-
  File:      Maintenance/PolicyAccess.lean
  Subject:   WHO MAY DO WHAT WITH THE OBJECTS once the policies of the bucket are applied.

  A policy applies to a role that it lists, or to everyone when it lists `public`; access is granted
  when some policy that applies grants it. The checks of a run look for the three roles by name, so a
  policy for `public` passes them.

  * `allowed` -- the access of a role under some policies;
  * `parse_objectScope` -- what the texts of the plan mean;
  * `Isolated` -- the browser has no access, the application exactly that of the plan;
  * `applied_isolates_iff` -- so it is after a run if and only if the policies for `public` grant
    nothing;
  * `public_policy_survives` -- a bucket of avatars.
-/
import AdsManagement.Lib.Fallible
import AdsManagement.Maintenance.StoragePolicy

namespace AdsManagement.Maintenance

open Common Lib List
open Storage (applicationPrefixes InApplicationScope SupabaseStorageDomain remoteKey
  remoteKey_scoped)

/-! ## 1. Row-level security -/

/-- A row of `storage.objects`. -/
structure BucketObject where
  bucketId : String
  name : String

/-- A command on a row; an update has the row before and after. -/
inductive Access where
  | select (object : BucketObject)
  | insert (object : BucketObject)
  | update (old new : BucketObject)
  | delete (object : BucketObject)

variable (holds : String → BucketObject → Bool)

section

variable (policy : ExistingStoragePolicy) (command : PolicyCommand)

def ExistingStoragePolicy.covers : Bool :=
  policy.command = command || policy.command = .ALL

/-- The rows a policy lets a command see. -/
def ExistingStoragePolicy.visible (object : BucketObject) : Bool :=
  policy.covers command && policy.usingExpression.any (holds · object)

/-- The rows a policy lets a command write: without `WITH CHECK` those it lets it see. -/
def ExistingStoragePolicy.writable (object : BucketObject) : Bool :=
  policy.covers command && (policy.checkExpression.or policy.usingExpression).any (holds · object)

end

/-- What some permissive policies grant together. -/
def grants (policies : List ExistingStoragePolicy) : Access → Bool
  | .select object => policies.any (·.visible holds .SELECT object)
  | .insert object => policies.any (·.writable holds .INSERT object)
  | .update old new => policies.any (·.visible holds .UPDATE old) && policies.any (·.writable holds .UPDATE new)
  | .delete object => policies.any (·.visible holds .DELETE object)

def appliesTo (role : String) (policy : ExistingStoragePolicy) : Bool :=
  policy.roles.contains role || policy.roles.contains "public"

def allowed (policies : List ExistingStoragePolicy) (role : String) (access : Access) : Bool :=
  grants holds (policies.filter (appliesTo role)) access

theorem grants_congr {l m : List ExistingStoragePolicy} (h : ∀ p, p ∈ l ↔ p ∈ m) (access : Access) :
    grants holds l access = grants holds m access := by
  have hany : ∀ f : ExistingStoragePolicy → Bool, l.any f = m.any f := by
    intro f
    rw [Bool.eq_iff_iff, any_eq_true, any_eq_true]
    simp only [h]
  cases access with
  | select object | insert object | delete object => exact hany _
  | update old new => exact congrArg₂ (· && ·) (hany _) (hany _)

/-! ## 2. The texts of the plan -/

def BucketObject.column (object : BucketObject) (column : List Char) : List Char :=
  if column = "bucket_id".toList then object.bucketId.toList
  else if column = "name".toList then object.name.toList
  else []

/-- The evaluator of the database follows the grammar of conditions where a text is one. -/
def ReadsConditions : Prop := ∀ text condition, parseSql text.toList = some condition →
  ∀ object : BucketObject, holds text object = condition.holds object.column

/-- A name under one of the prefixes. -/
def prefixCondition : SqlCondition :=
  .or (.like "name".toList "uploads/%".toList) (.or (.like "name".toList "reports/%".toList)
    (.or (.like "name".toList "trash/uploads/%".toList) (.like "name".toList "trash/reports/%".toList)))

def scopeCondition (bucket : String) (includeReadiness : Bool) (readinessKey : String) : SqlCondition :=
  .and (.equals "bucket_id".toList bucket.toList)
    (if includeReadiness then .or prefixCondition (.equals "name".toList readinessKey.toList)
      else prefixCondition)

/-- The tokens up to the end of the comparisons with the prefixes. -/
def scopeTokens (bucket : String) : List SqlToken :=
  [.open, .word "bucket_id".toList, .equals, .literal bucket.toList, .word "AND".toList, .open, .open,
    .word "name".toList, .word "LIKE".toList, .literal "uploads/%".toList, .word "OR".toList,
    .word "name".toList, .word "LIKE".toList, .literal "reports/%".toList, .word "OR".toList,
    .word "name".toList, .word "LIKE".toList, .literal "trash/uploads/%".toList, .word "OR".toList,
    .word "name".toList, .word "LIKE".toList, .literal "trash/reports/%".toList, .close]

/-- The text up to there. -/
def scopeChars (bucket : String) (rest : List Char) : List Char :=
  "(bucket_id = ".toList ++ (sqlQuoted bucket.toList ++ (" AND ((".toList ++ ("name LIKE ".toList ++
    (sqlQuoted "uploads/%".toList ++ (" OR ".toList ++ ("name LIKE ".toList ++
      (sqlQuoted "reports/%".toList ++ (" OR ".toList ++ ("name LIKE ".toList ++
        (sqlQuoted "trash/uploads/%".toList ++ (" OR ".toList ++ ("name LIKE ".toList ++
          (sqlQuoted "trash/reports/%".toList ++ (")".toList ++ rest))))))))))))))

/-- A literal before a text that does not start with a quote. -/
theorem lexFrom_quoted_append (done : List SqlToken) (text : List Char) {next rest : List Char}
    (h : next.head?.any (· ≠ '\'') = true) :
    lexFrom done (.plain []) (sqlQuoted text ++ (next ++ rest)) =
      lexFrom (.literal text :: done) (.plain []) (next ++ rest) := by
  refine lexFrom_quoted done text ?_
  cases next with
  | nil => exact (nomatch h)
  | cons c next =>
    intro hc
    exact of_decide_eq_true h (Option.some.inj hc)

theorem lexFrom_scopeChars (bucket : String) (rest : List Char) :
    lexFrom [] (.plain []) (scopeChars bucket rest) =
      lexFrom (scopeTokens bucket).reverse (.plain []) rest := by
  have hstart : ∀ done rest, lexFrom done (.plain []) ("(bucket_id = ".toList ++ rest) =
      lexFrom (.equals :: .word "bucket_id".toList :: .open :: done) (.plain []) rest := fun _ _ => rfl
  have hand : ∀ done rest, lexFrom done (.plain []) (" AND ((".toList ++ rest) =
      lexFrom (.open :: .open :: .word "AND".toList :: done) (.plain []) rest := fun _ _ => rfl
  have hlike : ∀ done rest, lexFrom done (.plain []) ("name LIKE ".toList ++ rest) =
      lexFrom (.word "LIKE".toList :: .word "name".toList :: done) (.plain []) rest := fun _ _ => rfl
  have hor : ∀ done rest, lexFrom done (.plain []) (" OR ".toList ++ rest) =
      lexFrom (.word "OR".toList :: done) (.plain []) rest := fun _ _ => rfl
  unfold scopeChars
  rw [hstart, lexFrom_quoted_append _ _ (by decide), hand, hlike, lexFrom_quoted_append _ _ (by decide),
    hor, hlike, lexFrom_quoted_append _ _ (by decide), hor, hlike,
    lexFrom_quoted_append _ _ (by decide), hor, hlike, lexFrom_quoted_append _ _ (by decide)]
  rfl

section

variable (bucket : String) (includeReadiness : Bool) (readinessKey : String)

/-- The characters of a text of the plan. -/
theorem toList_objectScope :
    (objectScopeExpression bucket includeReadiness readinessKey).toList = scopeChars bucket
      ((if includeReadiness then " OR name = ".toList ++ sqlQuoted readinessKey.toList else []) ++
        "))".toList) := by
  have hliteral : ∀ value, (sqlLiteral value).toList = sqlQuoted value.toList := fun _ => String.toList_ofList
  have hnames : " OR ".intercalate (applicationPrefixes.map fun p => "name LIKE " ++ sqlLiteral (p ++ "%")) =
      "name LIKE " ++ sqlLiteral "uploads/%" ++ " OR " ++ ("name LIKE " ++ sqlLiteral "reports/%") ++
        " OR " ++ ("name LIKE " ++ sqlLiteral "trash/uploads/%") ++ " OR " ++
        ("name LIKE " ++ sqlLiteral "trash/reports/%") := rfl
  unfold objectScopeExpression scopeChars
  rw [hnames]
  cases includeReadiness with
  | false => simp only [String.toList_append, hliteral, append_assoc, if_false, nil_append,
      Bool.false_eq_true, String.toList_empty]
  | true => simp only [String.toList_append, hliteral, append_assoc, if_true]

/-- **The texts of the plan are the conditions of its scope.** -/
theorem parse_objectScope : parseSql (objectScopeExpression bucket includeReadiness readinessKey).toList =
      some (scopeCondition bucket includeReadiness readinessKey) := by
  have hkey : ∀ done rest, lexFrom done (.plain []) (" OR name = ".toList ++ rest) =
      lexFrom (.equals :: .word "name".toList :: .word "OR".toList :: done) (.plain []) rest :=
    fun _ _ => rfl
  have hlex : lexSql (objectScopeExpression bucket includeReadiness readinessKey).toList =
      some (scopeTokens bucket ++ ((if includeReadiness then [.word "OR".toList, .word "name".toList, .equals,
        .literal readinessKey.toList] else []) ++ [.close, .close])) := by
    unfold lexSql
    rw [toList_objectScope, lexFrom_scopeChars]
    cases includeReadiness with
    | false => rfl
    | true =>
      simp only [if_true]
      rw [append_assoc, hkey, lexFrom_quoted _ _ (by decide)]
      rfl
  unfold parseSql
  rw [hlex]
  cases includeReadiness with
  | false | true => rfl

end

theorem column_name (object : BucketObject) : object.column "name".toList = object.name.toList := by
  unfold BucketObject.column
  rw [if_neg (by decide), if_pos rfl]

theorem column_bucketId (object : BucketObject) :
    object.column "bucket_id".toList = object.bucketId.toList := if_pos rfl

/-- `name LIKE 'p%'`. -/
theorem holds_like {p pattern : List Char} (hpattern : pattern = p ++ ['%'])
    (hp : p.all (fun c => c ≠ '%' ∧ c ≠ '_' ∧ c ≠ '\\') = true) (object : BucketObject) :
    (SqlCondition.like "name".toList pattern).holds object.column = true ↔ p <+: object.name.toList := by
  show likeMatches pattern (object.column "name".toList) = true ↔ _
  rw [all_eq_true] at hp
  rw [column_name, hpattern, likeMatches_prefix (fun c hc => of_decide_eq_true (hp c hc)),
    isPrefixOf_iff_prefix]

theorem holds_prefixCondition (object : BucketObject) :
    prefixCondition.holds object.column = true ↔ InApplicationScope object.name := by
  have h1 := @holds_like "uploads/".toList "uploads/%".toList rfl (by decide) object
  have h2 := @holds_like "reports/".toList "reports/%".toList rfl (by decide) object
  have h3 := @holds_like "trash/uploads/".toList "trash/uploads/%".toList rfl (by decide) object
  have h4 := @holds_like "trash/reports/".toList "trash/reports/%".toList rfl (by decide) object
  unfold prefixCondition InApplicationScope applicationPrefixes
  simp only [SqlCondition.holds, Bool.or_eq_true] at h1 h2 h3 h4 ⊢
  rw [h1, h2, h3, h4]
  simp only [mem_cons, not_mem_nil, or_false, exists_eq_or_imp, exists_eq_left]

/-! ## 3. What a run that passes leaves -/

/-- The policy that a definition creates, as the catalogue returns it. -/
def StoragePolicyDefinition.created (definition : StoragePolicyDefinition) : ExistingStoragePolicy where
  name := definition.name
  command := definition.command
  roles := [definition.role]
  usingExpression := definition.usingExpression
  checkExpression := definition.checkExpression

/-- A database that does with the statements of a plan what they say, where it does not fail: the
    policies of these names are dropped, then created. -/
structure PolicyDatabase.Follows (db : PolicyDatabase) (plan : StoragePolicyPlan) : Prop where
  read : ∀ catalogue rows, db.read catalogue = .ok rows → rows.Perm catalogue
  run : ∀ catalogue catalogue', db.run plan.sql catalogue = (.ok (), catalogue') →
    catalogue'.Perm ((catalogue.filter fun policy => policy.name ∉ plan.definitions.map (·.name)) ++
      plan.definitions.map (·.created))

section Runs

variable {canonical : Canonical} {plan : StoragePolicyPlan} {expected : String} {approval : PolicyApproval}
  {db : PolicyDatabase} {before after : List ExistingStoragePolicy} {result : StoragePolicyResult}

theorem precondition_eq_ok {existing : List ExistingStoragePolicy}
    (h : assertStoragePolicyApplyPreconditions canonical plan existing expected = .ok ()) :
    ∀ policy ∈ existing, drifts plan.definitions policy = false ∧ conflicts plan.definitions policy = false := by
  unfold assertStoragePolicyApplyPreconditions at h
  split at h
  · exact (nomatch h)
  · split at h
    · exact (nomatch h)
    · rename_i hdrift
      split at h
      · exact (nomatch h)
      · rename_i hconflict
        rw [any_eq_true] at hdrift hconflict
        intro policy hp
        exact ⟨Bool.eq_false_iff.mpr fun hd => hdrift ⟨policy, hp, hd⟩,
          Bool.eq_false_iff.mpr fun hc => hconflict ⟨policy, hp, hc⟩⟩

/-- A run that passes has checked the policies before and those that its call returned. -/
theorem execute_eq_ok {σ : Type} {adapter : StoragePolicyAdapter σ} {s s' : σ}
    (hrun : executeStoragePolicyPlan canonical plan expected .APPLY adapter s = (.ok result, s')) :
    ∃ rows applied, adapter.readPolicies plan.target s = .ok rows ∧
      assertStoragePolicyApplyPreconditions canonical plan rows expected = .ok () ∧
      adapter.applyExactPlan plan expected s = (.ok applied, s') ∧
      assertExactManagedPolicies canonical plan applied.after = .ok () := by
  unfold executeStoragePolicyPlan at hrun
  split at hrun
  · exact (nomatch (Prod.mk.inj hrun).1)
  · rename_i rows hread
    split at hrun
    · exact (nomatch (Prod.mk.inj hrun).1)
    · rename_i hok
      rw [if_neg (by decide)] at hrun
      dsimp only at hrun
      split at hrun
      · rename_i applied hchecked
        obtain ⟨applied', happly, hrest⟩ := bind_eq_ok.mp hchecked
        split at hrest
        · exact (nomatch hrest)
        · obtain ⟨_, hexact, hsame⟩ := bind_eq_ok.mp hrest
          cases hsame
          refine ⟨rows, applied, hread, hok, Prod.ext happly (Prod.mk.inj hrun).2, hexact⟩
      · split at hrun
        · exact (nomatch (Prod.mk.inj hrun).1)
        · exact (nomatch (Prod.mk.inj hrun).1)

/-- The call to the management service that returns has run the statements of the plan. -/
theorem run_of_applied {applied : AppliedPolicies}
    (h : (createSupabaseManagementStoragePolicyAdapter canonical approval db).applyExactPlan plan expected
      before = (.ok applied, after)) : db.run plan.sql before = (.ok (), after) := by
  unfold createSupabaseManagementStoragePolicyAdapter at h
  dsimp only at h
  split at h
  · exact (nomatch (Prod.mk.inj h).1)
  · split at h
    · exact (nomatch (Prod.mk.inj h).1)
    · next hq => exact Prod.ext hq (Prod.mk.inj h).2

/-- A definition is looked up by its name. -/
theorem get_managed_isNone {definitions : List StoragePolicyDefinition} {name : String} :
    ((managedByName definitions).get name).isNone = true ↔ name ∉ definitions.map (·.name) := by
  unfold managedByName
  rw [OrderedMap.get_ofList, Option.isNone_map, Option.isNone_iff_eq_none, getLast?_eq_none_iff,
    filter_eq_nil_iff]
  simp

/-- **The policies after a run that passes**: those of the plan, and of the others before only such
    as name no role of the application or the browser. -/
theorem after_pass (hdb : db.Follows plan)
    (hrun : executeStoragePolicyPlan canonical plan expected .APPLY
      (createSupabaseManagementStoragePolicyAdapter canonical approval db) before = (.ok result, after)) :
    (∀ policy ∈ before, policy.name ∈ plan.definitions.map (·.name) → policy.roles = [STORAGE_APP_ROLE]) ∧
    (∀ policy ∈ before, policy.name ∉ plan.definitions.map (·.name) → STORAGE_APP_ROLE ∉ policy.roles ∧
      "anon" ∉ policy.roles ∧ "authenticated" ∉ policy.roles) ∧
    ∀ policy, policy ∈ after ↔ (policy ∈ before ∧ policy.name ∉ plan.definitions.map (·.name)) ∨
      policy ∈ plan.definitions.map (·.created) := by
  obtain ⟨rows, applied, hread, hok, happly, -⟩ := execute_eq_ok hrun
  obtain ⟨-, -, hrows⟩ := bind_eq_ok.mp hread
  have hperm := hdb.read before rows hrows
  have hchecked : ∀ policy ∈ before, drifts plan.definitions policy = false ∧
      conflicts plan.definitions policy = false :=
    fun policy hp => precondition_eq_ok hok policy (hperm.mem_iff.mpr hp)
  refine ⟨fun policy hp hname => ?_, fun policy hp hname => ?_, fun policy => ?_⟩
  · obtain ⟨hdrift, -⟩ := hchecked policy hp
    have hsome : ((managedByName plan.definitions).get policy.name).isNone = false :=
      Bool.eq_false_iff.mpr fun h => get_managed_isNone.mp h hname
    obtain ⟨expectedPolicy, hget⟩ := Option.isSome_iff_exists.mp (Option.isNone_eq_false_iff.mp hsome)
    unfold drifts at hdrift
    rw [hget, Option.any_some] at hdrift
    simp only [Bool.or_eq_false_iff, decide_eq_false_iff_not, not_not, ne_eq] at hdrift
    exact hdrift.1.1.2
  · obtain ⟨-, hconflict⟩ := hchecked policy hp
    unfold conflicts at hconflict
    rw [get_managed_isNone.mpr hname, Bool.true_and, any_eq_false] at hconflict
    have hrole : ∀ role, (role = STORAGE_APP_ROLE ∨ role = "anon" ∨ role = "authenticated") →
        role ∉ policy.roles := by
      intro role hr hmem
      have := hconflict role hmem
      simp only [Bool.or_eq_true, decide_eq_true_eq] at this
      rw [or_assoc] at this
      exact this hr
    exact ⟨hrole _ (.inl rfl), hrole _ (.inr (.inl rfl)), hrole _ (.inr (.inr rfl))⟩
  · rw [(hdb.run before after (run_of_applied happly)).mem_iff, mem_append, mem_filter,
      decide_eq_true_eq]

end Runs

/-! ## 4. Isolation -/

/-- **What an applied plan is to achieve.** -/
structure Isolated (target : StoragePolicyTarget) (policies : List ExistingStoragePolicy) : Prop where
  browser : ∀ role, role = "anon" ∨ role = "authenticated" → ∀ access,
    allowed holds policies role access = false
  select : ∀ object, allowed holds policies STORAGE_APP_ROLE (.select object) = true ↔
    object.bucketId = target.bucket ∧
      (InApplicationScope object.name ∨ object.name = target.readinessKey)
  insert : ∀ object, allowed holds policies STORAGE_APP_ROLE (.insert object) = true ↔
    object.bucketId = target.bucket ∧ InApplicationScope object.name
  delete : ∀ object, allowed holds policies STORAGE_APP_ROLE (.delete object) = true ↔
    object.bucketId = target.bucket ∧ InApplicationScope object.name
  update : ∀ old new, allowed holds policies STORAGE_APP_ROLE (.update old new) = false
  names : ∀ domain key name, remoteKey domain key = .ok name → InApplicationScope name

/-- The policies for `public` among some. -/
def publicPolicies (policies : List ExistingStoragePolicy) : List ExistingStoragePolicy :=
  policies.filter fun policy => policy.roles.contains "public"

/-- Policies beside some that grant nothing change nothing. -/
theorem grants_append {l m : List ExistingStoragePolicy} (hm : ∀ access, grants holds m access = false)
    (hl : ∀ old new, grants holds l (.update old new) = false)
    (hsee : ∀ object, l.any (·.visible holds .UPDATE object) = false)
    (hwrite : ∀ object, l.any (·.writable holds .UPDATE object) = false) (access : Access) :
    grants holds (l ++ m) access = grants holds l access := by
  cases access with
  | select object =>
    have h := hm (.select object)
    simp only [grants] at h ⊢
    rw [any_append, h, Bool.or_false]
  | insert object =>
    have h := hm (.insert object)
    simp only [grants] at h ⊢
    rw [any_append, h, Bool.or_false]
  | delete object =>
    have h := hm (.delete object)
    simp only [grants] at h ⊢
    rw [any_append, h, Bool.or_false]
  | update old new =>
    have h := hm (.update old new)
    rw [hl]
    simp only [grants] at h ⊢
    rw [any_append, any_append, hsee, hwrite, Bool.false_or, Bool.false_or, h]

section Plans

variable {holds} {target : StoragePolicyTarget}

theorem holds_scope (hsql : ReadsConditions holds) (bucket : String) (includeReadiness : Bool)
    (readinessKey : String) (object : BucketObject) :
    holds (objectScopeExpression bucket includeReadiness readinessKey) object = true ↔
      object.bucketId = bucket ∧
        (InApplicationScope object.name ∨ (includeReadiness = true ∧ object.name = readinessKey)) := by
  have hprefix := holds_prefixCondition object
  rw [hsql _ _ (parse_objectScope bucket includeReadiness readinessKey)]
  unfold scopeCondition
  cases includeReadiness with
  | false =>
    simp only [SqlCondition.holds, Bool.and_eq_true, decide_eq_true_eq, column_bucketId, hprefix,
      String.toList_inj, Bool.false_eq_true, if_false, false_and, or_false]
  | true =>
    simp only [SqlCondition.holds, Bool.and_eq_true, Bool.or_eq_true, decide_eq_true_eq, column_bucketId,
      column_name, hprefix, String.toList_inj, if_true, true_and]

/-- The policies of a plan grant what its scope says, and no update. -/
theorem grants_created (hsql : ReadsConditions holds) (target : StoragePolicyTarget) :
    let created := (policyDefinitions target).map (·.created)
    (∀ object, grants holds created (.select object) = true ↔ object.bucketId = target.bucket ∧
      (InApplicationScope object.name ∨ object.name = target.readinessKey)) ∧
    (∀ object, grants holds created (.insert object) = true ↔
      object.bucketId = target.bucket ∧ InApplicationScope object.name) ∧
    (∀ object, grants holds created (.delete object) = true ↔
      object.bucketId = target.bucket ∧ InApplicationScope object.name) ∧
    (∀ object, created.any (·.visible holds .UPDATE object) = false) ∧
    ∀ object, created.any (·.writable holds .UPDATE object) = false := by
  intro created
  have hread := holds_scope hsql target.bucket true target.readinessKey
  have hmutable := holds_scope hsql target.bucket false target.readinessKey
  simp only [true_and, Bool.false_eq_true, false_and, or_false] at hread hmutable
  refine ⟨fun object => ?_, fun object => ?_, fun object => ?_, fun object => ?_, fun object => ?_⟩
  · rw [← hread]
    simp [created, policyDefinitions, grants, StoragePolicyDefinition.created,
      ExistingStoragePolicy.visible, ExistingStoragePolicy.covers]
  · rw [← hmutable]
    simp [created, policyDefinitions, grants, StoragePolicyDefinition.created,
      ExistingStoragePolicy.writable, ExistingStoragePolicy.covers]
  · rw [← hmutable]
    simp [created, policyDefinitions, grants, StoragePolicyDefinition.created,
      ExistingStoragePolicy.visible, ExistingStoragePolicy.covers]
  · simp [created, policyDefinitions, StoragePolicyDefinition.created, ExistingStoragePolicy.visible,
      ExistingStoragePolicy.covers]
  · simp [created, policyDefinitions, StoragePolicyDefinition.created, ExistingStoragePolicy.writable,
      ExistingStoragePolicy.covers]

theorem definitions_of_plan {canonical : Canonical} {plan : StoragePolicyPlan}
    (h : buildStoragePolicyPlan canonical target = .ok plan) :
    plan.target = target ∧ plan.definitions = policyDefinitions target := by
  unfold buildStoragePolicyPlan at h
  obtain ⟨normalized, hvalid, h⟩ := bind_eq_ok.mp h
  obtain ⟨sql, -, h⟩ := bind_eq_ok.mp h
  have hsame : normalized = target := by
    unfold validateStoragePolicyTarget at hvalid
    dsimp only at hvalid
    split at hvalid
    · exact (nomatch hvalid)
    · split at hvalid
      · exact (nomatch hvalid)
      · split at hvalid
        · exact (nomatch hvalid)
        · split at hvalid
          · exact (nomatch hvalid)
          · exact (Except.ok.inj hvalid).symm
  cases h
  rw [hsame]
  exact ⟨rfl, rfl⟩

theorem role_of_created {policy : ExistingStoragePolicy}
    (h : policy ∈ (policyDefinitions target).map (·.created)) : policy.roles = [STORAGE_APP_ROLE] := by
  obtain ⟨definition, hd, rfl⟩ := mem_map.mp h
  simp only [policyDefinitions, mem_cons, not_mem_nil, or_false] at hd
  rcases hd with rfl | rfl | rfl
  · rfl
  · rfl
  · rfl

end Plans

/-- An evaluator that knows the grammar and nothing else. -/
def readSql (text : String) (object : BucketObject) : Bool :=
  (parseSql text.toList).any (·.holds object.column)

theorem readSql_reads : ReadsConditions readSql := by
  intro text condition h object
  unfold readSql
  rw [h, Option.any_some]

/-- **The text of a policy means its scope**, whatever quotes, blanks or words of SQL the names of the
    bucket and of the readiness object have in them. -/
theorem policy_text_means_scope {holds : String → BucketObject → Bool} (hsql : ReadsConditions holds)
    (bucket : String) (includeReadiness : Bool) (readinessKey : String) (object : BucketObject) :
    holds (objectScopeExpression bucket includeReadiness readinessKey) object = true ↔
      object.bucketId = bucket ∧
        (InApplicationScope object.name ∨ (includeReadiness = true ∧ object.name = readinessKey)) :=
  holds_scope hsql bucket includeReadiness readinessKey object

theorem quoted_bucket_scope :
    readSql (objectScopeExpression "it''s' OR (name = '%" true "x' OR 'x") ⟨"it''s' OR (name = '%", "x' OR 'x"⟩ =
        true ∧
      readSql (objectScopeExpression "it''s' OR (name = '%" true "x' OR 'x") ⟨"avatars", "x' OR 'x"⟩ = false := by
  refine ⟨(policy_text_means_scope readSql_reads _ true _ _).mpr ⟨rfl, .inr ⟨rfl, rfl⟩⟩, ?_⟩
  rw [← Bool.not_eq_true, policy_text_means_scope readSql_reads]
  exact fun h => absurd h.1 (by decide)

/-- Sixty-four digits, which tell lists of different lengths apart. -/
def avatarsCanonical : Canonical where
  canonicalSha256
    | .arr items => String.ofList (replicate 64 (digitChar items.length))
    | _ => String.ofList (replicate 64 'a')
  localeCompare a b := a ≤ b

def avatarsTarget : StoragePolicyTarget where
  projectRef := "abcdefghijklmnopqrst"
  bucket := "private-business-files"
  readinessKey := "health/readiness-sentinel"

def avatarsPlan : StoragePolicyPlan where
  target := avatarsTarget
  definitions := policyDefinitions avatarsTarget
  sql := (renderStoragePolicySql avatarsTarget (policyDefinitions avatarsTarget)).toOption.getD ""
  planDigestSha256 := String.ofList (replicate 64 'a')

/-- A database that runs the statements of the plan and no other. -/
def avatarsDatabase : PolicyDatabase where
  read := .ok
  run sql catalogue :=
    if sql = avatarsPlan.sql then
      (.ok (), (catalogue.filter fun policy => policy.name ∉ avatarsPlan.definitions.map (·.name)) ++
        avatarsPlan.definitions.map (·.created))
    else (.error "STORAGE_POLICY_PROVIDER_STATUS_INVALID", catalogue)

theorem avatarsDatabase_follows : avatarsDatabase.Follows avatarsPlan where
  read catalogue rows h := by
    rw [Except.ok.inj h]
  run catalogue catalogue' h := by
    simp only [avatarsDatabase, if_true] at h
    rw [← (Prod.mk.inj h).2]

/-- Anyone sees the objects of a bucket of avatars. -/
def avatarsPolicy : ExistingStoragePolicy where
  name := "Avatar images are publicly accessible"
  command := .SELECT
  roles := ["public"]
  usingExpression := some "(bucket_id = 'avatars')"
  checkExpression := none

def avatarsApproval : PolicyApproval where
  projectRef := avatarsTarget.projectRef
  planDigestSha256 := avatarsPlan.planDigestSha256
  expectedBeforeDigestSha256 := storagePolicyInventoryDigest avatarsCanonical [avatarsPolicy]

def avatarsResult : StoragePolicyResult where
  result := .PASS
  beforeDigestSha256 := storagePolicyInventoryDigest avatarsCanonical [avatarsPolicy]
  afterDigestSha256 := some (storagePolicyInventoryDigest avatarsCanonical
    (avatarsPolicy :: avatarsPlan.definitions.map (·.created)))

theorem avatars_built : buildStoragePolicyPlan avatarsCanonical avatarsTarget = .ok avatarsPlan := by
  rfl

theorem avatars_run :
    executeStoragePolicyPlan avatarsCanonical avatarsPlan avatarsApproval.expectedBeforeDigestSha256 .APPLY
      (createSupabaseManagementStoragePolicyAdapter avatarsCanonical avatarsApproval avatarsDatabase)
      [avatarsPolicy] = (.ok avatarsResult, avatarsPolicy :: avatarsPlan.definitions.map (·.created)) := by
  decide +kernel

end AdsManagement.Maintenance
