/-
  File:      Maintenance/StoragePolicy.lean
  Subject:   THE ACCESS POLICIES OF THE BUCKET (maintenance/storage/policy.ts): the plan of three
             policies of `storage_app`, the checks against the policies that exist, and the run
             that applies the plan through the management service.

  Policies are texts; what a database does with them is in PolicyAccess. Digests and the order of
  names under a locale are parameters. The approval of the credential is left out but for the two
  digests that bind a run to it.

  * `buildStoragePolicyPlan` -- the plan of a target;
  * `assertStoragePolicyApplyPreconditions` -- no managed policy differs, no other one names a role
    of the application or the browser;
  * `executeStoragePolicyPlan` -- check, apply, check again, and restore where that fails.
-/
import Mathlib.Data.List.Sort
import AdsManagement.Common.Json
import AdsManagement.Lib.OrderedMap
import AdsManagement.Lib.SqlConditions
import AdsManagement.Storage.References

namespace AdsManagement.Maintenance

open Common Lib
open Storage (applicationPrefixes)

/-- `canonicalSha256` and `localeCompare(...) <= 0`. -/
structure Canonical where
  canonicalSha256 : Json → String
  localeCompare : String → String → Bool

/-! ## 1. Policies -/

def STORAGE_APP_ROLE : String := "storage_app"

/-- `cmd` of `pg_policies`, which is written in capitals. -/
inductive PolicyCommand where
  | SELECT
  | INSERT
  | UPDATE
  | DELETE
  | ALL
deriving DecidableEq

def PolicyCommand.text : PolicyCommand → String
  | .SELECT => "SELECT"
  | .INSERT => "INSERT"
  | .UPDATE => "UPDATE"
  | .DELETE => "DELETE"
  | .ALL => "ALL"

structure StoragePolicyTarget where
  projectRef : String
  bucket : String
  readinessKey : String

structure StoragePolicyDefinition where
  name : String
  command : PolicyCommand
  role : String
  usingExpression : Option String
  checkExpression : Option String

structure StoragePolicyPlan where
  target : StoragePolicyTarget
  definitions : List StoragePolicyDefinition
  sql : String
  planDigestSha256 : String

structure ExistingStoragePolicy where
  name : String
  command : PolicyCommand
  roles : List String
  usingExpression : Option String
  checkExpression : Option String
deriving DecidableEq

/-! ## 2. The plan -/

/-- `[a-z0-9]`. -/
def isLowerAlphanumeric (c : Char) : Bool := ('a' ≤ c && c ≤ 'z') || c.isDigit

/-- One character of `[a-z0-9]`, then at most `n` that are such or among `others`. -/
def isLowerName (others : List Char) (n : Nat) (s : String) : Bool :=
  match s.toList with
  | [] => false
  | c :: rest => isLowerAlphanumeric c && rest.length ≤ n &&
      rest.all fun d => isLowerAlphanumeric d || others.contains d

def validateStoragePolicyTarget (target : StoragePolicyTarget) : Except String StoragePolicyTarget :=
  let key := target.readinessKey.toList
  if !(target.projectRef.toList.length = 20 && target.projectRef.toList.all isLowerAlphanumeric) then
    .error "STORAGE_POLICY_PROJECT_REF_INVALID"
  else if !isLowerName ['.', '_', '-'] 62 target.bucket then .error "STORAGE_POLICY_BUCKET_INVALID"
  else if !isLowerName ['.', '_', '/', '-'] 1023 target.readinessKey || ['.', '.'] <:+: key ||
      ['/', '/'] <:+: key then .error "STORAGE_POLICY_READINESS_KEY_INVALID"
  else if applicationPrefixes.any fun p => key = p.toList.dropLast || p.toList.isPrefixOf key then
    .error "STORAGE_POLICY_READINESS_KEY_OVERLAPS_MUTABLE_SCOPE"
  else .ok target

def sqlLiteral (value : String) : String := String.ofList (sqlQuoted value.toList)

/-- `^[a-z][a-z0-9_]{0,62}$`, quoted. -/
def sqlIdentifier (value : String) : Except String String :=
  if (value.toList.head?.any fun c => 'a' ≤ c && c ≤ 'z') && isLowerName ['_'] 62 value then
    .ok ("\"" ++ value ++ "\"")
  else .error "STORAGE_POLICY_IDENTIFIER_INVALID"

def objectScopeExpression (bucket : String) (includeReadiness : Bool) (readinessKey : String) : String :=
  let names := " OR ".intercalate (applicationPrefixes.map fun p => "name LIKE " ++ sqlLiteral (p ++ "%"))
  let readiness := if includeReadiness then " OR name = " ++ sqlLiteral readinessKey else ""
  "(bucket_id = " ++ sqlLiteral bucket ++ " AND ((" ++ names ++ ")" ++ readiness ++ "))"

def dropPolicySql (definition : StoragePolicyDefinition) : Except String String := do
  return "DROP POLICY IF EXISTS " ++ (← sqlIdentifier definition.name) ++ " ON storage.objects;"

def createPolicySql (definition : StoragePolicyDefinition) : Except String String := do
  let condition :=
    if definition.command = .INSERT then "WITH CHECK " ++ definition.checkExpression.getD "undefined"
    else "USING " ++ definition.usingExpression.getD "undefined"
  return "CREATE POLICY " ++ (← sqlIdentifier definition.name) ++ " ON storage.objects FOR " ++
    definition.command.text ++ " TO " ++ (← sqlIdentifier definition.role) ++ " " ++ condition ++ ";"

def renderStoragePolicySql (target : StoragePolicyTarget) (definitions : List StoragePolicyDefinition) :
    Except String String := do
  let drop ← definitions.mapM dropPolicySql
  let create ← definitions.mapM createPolicySql
  return "\n".intercalate
    ["BEGIN;",
      "-- target-project-ref: " ++ target.projectRef,
      "-- target-bucket: " ++ target.bucket,
      "-- Requires a separately approved, pre-existing NOLOGIN storage_app role granted to authenticator",
      "-- with only the provider-required base grants (Supabase documents anon -> storage_app).",
      "-- No anon/authenticated policy is created; Storage RLS default-deny remains authoritative.",
      "\n".intercalate drop,
      "\n".intercalate create,
      "COMMIT;"]

/-- The three policies of a target. -/
def policyDefinitions (target : StoragePolicyTarget) : List StoragePolicyDefinition :=
  let prefixExpression := objectScopeExpression target.bucket false target.readinessKey
  let readExpression := objectScopeExpression target.bucket true target.readinessKey
  [{ name := "storage_app_read_exact_scope_v1"
     command := .SELECT
     role := STORAGE_APP_ROLE
     usingExpression := some readExpression
     checkExpression := none },
   { name := "storage_app_insert_exact_scope_v1"
     command := .INSERT
     role := STORAGE_APP_ROLE
     usingExpression := none
     checkExpression := some prefixExpression },
   { name := "storage_app_delete_exact_scope_v1"
     command := .DELETE
     role := STORAGE_APP_ROLE
     usingExpression := some prefixExpression
     checkExpression := none }]

/-- A field that may be `undefined` is left out of the JSON of an object. -/
def optionalField (field : String) (value : Option String) : Body :=
  (value.map fun value => (field, Json.str value)).toList

def StoragePolicyDefinition.json (definition : StoragePolicyDefinition) : Json :=
  .obj ([("name", .str definition.name), ("command", .str definition.command.text),
    ("role", .str definition.role)] ++ optionalField "usingExpression" definition.usingExpression ++
      optionalField "checkExpression" definition.checkExpression)

def buildStoragePolicyPlan (canonical : Canonical) (target : StoragePolicyTarget) :
    Except String StoragePolicyPlan := do
  let normalized ← validateStoragePolicyTarget target
  let definitions := policyDefinitions normalized
  let sql ← renderStoragePolicySql normalized definitions
  let digestInput := Json.obj
    [("contractVersion", .num 1),
      ("target", .obj [("projectRef", .str normalized.projectRef), ("bucket", .str normalized.bucket),
        ("readinessKey", .str normalized.readinessKey)]),
      ("definitions", .arr (definitions.map (·.json))),
      ("sql", .str sql)]
  return {
    target := normalized
    definitions
    sql
    planDigestSha256 := canonical.canonicalSha256 digestInput }

/-! ## 3. Checks -/

def nullableText (value : Option String) : Json := (value.map Json.str).getD .null

def storagePolicyInventoryDigest (canonical : Canonical) (policies : List ExistingStoragePolicy) : String :=
  let sorted := policies.insertionSort fun left right => canonical.localeCompare left.name right.name
  canonical.canonicalSha256 (.arr (sorted.map fun policy => .obj
    [("name", .str policy.name),
      ("command", .str policy.command.text),
      ("roles", .arr ((policy.roles.insertionSort (· ≤ ·)).map .str)),
      ("usingExpression", nullableText policy.usingExpression),
      ("checkExpression", nullableText policy.checkExpression)]))

section

variable (definitions : List StoragePolicyDefinition)

/-- `new Map(plan.definitions.map((definition) => [definition.name, definition]))`. -/
def managedByName : OrderedMap String StoragePolicyDefinition :=
  OrderedMap.ofList (definitions.map fun definition => (definition.name, definition))

/-- A policy that differs from the definition of its name. -/
def drifts (policy : ExistingStoragePolicy) : Bool :=
  ((managedByName definitions).get policy.name).any fun expected =>
    policy.command ≠ expected.command || policy.roles ≠ [STORAGE_APP_ROLE] ||
      policy.usingExpression ≠ expected.usingExpression || policy.checkExpression ≠ expected.checkExpression

/-- Another policy that names the role of the application or one of the browser. -/
def conflicts (policy : ExistingStoragePolicy) : Bool :=
  ((managedByName definitions).get policy.name).isNone &&
    policy.roles.any fun role => role = STORAGE_APP_ROLE || role = "anon" || role = "authenticated"

end

def assertStoragePolicyApplyPreconditions (canonical : Canonical) (plan : StoragePolicyPlan)
    (existing : List ExistingStoragePolicy) (expectedBeforeDigestSha256 : String) : Except String Unit :=
  if storagePolicyInventoryDigest canonical existing ≠ expectedBeforeDigestSha256 then
    .error "STORAGE_POLICY_BEFORE_DIGEST_MISMATCH"
  else if existing.any (drifts plan.definitions) then .error "STORAGE_POLICY_MANAGED_POLICY_DRIFT"
  else if existing.any (conflicts plan.definitions) then .error "STORAGE_POLICY_UNEXPECTED_EXISTING_POLICY"
  else .ok ()

def assertExactManagedPolicies (canonical : Canonical) (plan : StoragePolicyPlan)
    (policies : List ExistingStoragePolicy) : Except String Unit :=
  let managedNames := plan.definitions.map (·.name)
  let managed := policies.filter fun policy => managedNames.contains policy.name
  if managed.length ≠ plan.definitions.length then .error "STORAGE_POLICY_MANAGED_POLICY_COUNT_INVALID"
  else assertStoragePolicyApplyPreconditions canonical plan policies
    (storagePolicyInventoryDigest canonical policies)

/-! ## 4. The run -/

structure AppliedPolicies where
  appliedPlanDigestSha256 : String
  after : List ExistingStoragePolicy

/-- The calls of a run, over the state `σ` of the service behind them. -/
structure StoragePolicyAdapter (σ : Type) where
  readPolicies : StoragePolicyTarget → σ → Except String (List ExistingStoragePolicy)
  applyExactPlan : StoragePolicyPlan → String → σ → Except String AppliedPolicies × σ
  restoreExactPolicies : StoragePolicyTarget → List ExistingStoragePolicy → σ → Except String Unit × σ

inductive StoragePolicyMode where
  | DRY_RUN
  | APPLY
deriving DecidableEq

inductive StoragePolicyOutcome where
  | NOT_RUN
  | PASS
deriving DecidableEq

structure StoragePolicyResult where
  result : StoragePolicyOutcome
  beforeDigestSha256 : String
  afterDigestSha256 : Option String
deriving DecidableEq

def executeStoragePolicyPlan {σ : Type} (canonical : Canonical) (plan : StoragePolicyPlan)
    (expectedBeforeDigestSha256 : String) (mode : StoragePolicyMode) (adapter : StoragePolicyAdapter σ)
    (s : σ) : Except String StoragePolicyResult × σ :=
  match adapter.readPolicies plan.target s with
  | .error e => (.error e, s)
  | .ok before =>
    match assertStoragePolicyApplyPreconditions canonical plan before expectedBeforeDigestSha256 with
    | .error e => (.error e, s)
    | .ok () =>
      if mode = .DRY_RUN then
        (.ok ⟨.NOT_RUN, storagePolicyInventoryDigest canonical before, none⟩, s)
      else
        let (applied, s') := adapter.applyExactPlan plan expectedBeforeDigestSha256 s
        let checked : Except String AppliedPolicies := do
          let applied ← applied
          if applied.appliedPlanDigestSha256 ≠ plan.planDigestSha256 then
            throw "STORAGE_POLICY_APPLIED_PLAN_DIGEST_MISMATCH"
          assertExactManagedPolicies canonical plan applied.after
          return applied
        match checked with
        | .ok applied =>
          (.ok ⟨.PASS, expectedBeforeDigestSha256,
            some (storagePolicyInventoryDigest canonical applied.after)⟩, s')
        | .error _ =>
          -- the error of a restoration that fails takes the place of this one
          let (restored, s'') := adapter.restoreExactPolicies plan.target before s'
          match restored with
          | .error e => (.error e, s'')
          | .ok () => (.error "STORAGE_POLICY_APPLY_FAILED_ROLLED_BACK", s'')

/-! ## 5. The management service -/

/-- A database whose catalogue is a list of policies: the query of the catalogue, and what a text of
    statements does. Either may fail. -/
structure PolicyDatabase where
  read : List ExistingStoragePolicy → Except String (List ExistingStoragePolicy)
  run : String → List ExistingStoragePolicy → Except String Unit × List ExistingStoragePolicy

/-- What an approval binds a run to. -/
structure PolicyApproval where
  projectRef : String
  planDigestSha256 : String
  expectedBeforeDigestSha256 : String

def assertBoundPolicyTarget (approval : PolicyApproval) (target : StoragePolicyTarget) : Except String Unit := do
  if target.projectRef ≠ approval.projectRef then throw "STORAGE_POLICY_PROVIDER_TARGET_MISMATCH"
  let _ ← validateStoragePolicyTarget target

def renderManagedRollbackSql (plan : StoragePolicyPlan) (before : List ExistingStoragePolicy) :
    Except String String := do
  let beforeNames := before.map (·.name)
  let drop ← plan.definitions.mapM dropPolicySql
  let create ← (plan.definitions.filter fun definition => beforeNames.contains definition.name).mapM
    createPolicySql
  return "\n".intercalate (["BEGIN;"] ++ drop ++ create ++ ["COMMIT;"])

def createSupabaseManagementStoragePolicyAdapter (canonical : Canonical) (approval : PolicyApproval)
    (db : PolicyDatabase) : StoragePolicyAdapter (List ExistingStoragePolicy) :=
  let readPolicies (target : StoragePolicyTarget) (catalogue : List ExistingStoragePolicy) :
      Except String (List ExistingStoragePolicy) := do
    assertBoundPolicyTarget approval target
    db.read catalogue
  { readPolicies
    applyExactPlan := fun plan expectedBeforeDigestSha256 catalogue =>
      let checked : Except String Unit := do
        assertBoundPolicyTarget approval plan.target
        if plan.planDigestSha256 ≠ approval.planDigestSha256 ∨
            expectedBeforeDigestSha256 ≠ approval.expectedBeforeDigestSha256 then
          throw "STORAGE_POLICY_PROVIDER_APPROVAL_BINDING_MISMATCH"
        let before ← readPolicies plan.target catalogue
        assertStoragePolicyApplyPreconditions canonical plan before expectedBeforeDigestSha256
      match checked with
      | .error e => (.error e, catalogue)
      | .ok () =>
        let (queried, catalogue') := db.run plan.sql catalogue
        match queried with
        | .error e => (.error e, catalogue')
        | .ok () =>
          ((readPolicies plan.target catalogue').map fun after => ⟨plan.planDigestSha256, after⟩, catalogue')
    restoreExactPolicies := fun target before catalogue =>
      let rollbackSql : Except String String := do
        assertBoundPolicyTarget approval target
        let plan ← buildStoragePolicyPlan canonical target
        assertStoragePolicyApplyPreconditions canonical plan before
          (storagePolicyInventoryDigest canonical before)
        renderManagedRollbackSql plan before
      match rollbackSql with
      | .error e => (.error e, catalogue)
      | .ok sql =>
        let (queried, catalogue') := db.run sql catalogue
        match queried with
        | .error e => (.error e, catalogue')
        | .ok () =>
          let restored : Except String Unit := do
            let restored ← readPolicies target catalogue'
            if storagePolicyInventoryDigest canonical restored ≠
                storagePolicyInventoryDigest canonical before then
              throw "STORAGE_POLICY_ROLLBACK_VERIFY_FAILED"
          (restored, catalogue') }

end AdsManagement.Maintenance
