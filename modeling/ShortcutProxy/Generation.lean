import Mathlib

/-!
# Generation coordination records

`runtime/generation.py` keeps one coordinator record per artifact store. The
record names the current build generation, its fence and its immutable table
plan. This module holds the two representations the source moves between: the
`GenerationContext` of the program and the dictionary stored under the
coordinator key. Reading a stored dictionary back can fail, because the digest
of its table plans is checked against the one it carries.

The encoder behind the digest is not modelled. A digest of table plans is an
argument wherever one is computed; it is applied to the plans in the order in
which `_plan_payload` sorts them. Two coordinator dictionaries are equal exactly
when their canonical bytes are, so byte comparisons become comparisons of
records.
-/
namespace ShortcutProxy.Generation

/-- The plan states of a generation. -/
inductive PlanState where
  | preparing
  | ready
  | failed
  | active
  deriving DecidableEq, Repr

/-- A split boundary as `encode_boundary` tags it. -/
inductive Boundary where
  | none
  | bool (value : Bool)
  | int (value : Int)
  | float (text : String)
  | decimal (text : String)
  | datetime (text : String)
  | date (text : String)
  | string (text : String)
  deriving DecidableEq, Repr

/-- The serializable identity of one table's source read point. -/
structure ReadPointDescriptor where
  version : Int
  provider : String
  connectionId : String
  tableId : String
  ownerShard : Int
  generationId : String
  generationFence : Int
  acquiredAtMs : Int
  expiresAtMs : Option Int
  token : Option String
  reopenable : Bool
  deriving DecidableEq, Repr

/-- One generation's plan for reading a source table. -/
structure TableReadPlan where
  version : Int
  tableId : String
  descriptor : ReadPointDescriptor
  splitCount : Int
  splitStrategy : String
  splitKey : String
  splitKeyType : Option String
  ranges : List (Boundary × Boundary)
  deriving DecidableEq, Repr

/-- `GENERATION_VERSION`. -/
def generationVersion : Int := 2

/-- The program's view of one generation. -/
structure GenerationContext where
  generationId : String
  fence : Int
  leaseToken : String
  shardCount : Int
  expiresAtMs : Int
  sourceConsistency : String := "best_effort"
  version : Int := generationVersion
  planState : PlanState := .ready
  tablePlans : List TableReadPlan := []
  planSha256 : String := ""
  deriving DecidableEq, Repr

/-- The plan entries that a dictionary of version two adds. -/
structure PlanEntries where
  planState : PlanState
  planSha256 : String
  tablePlans : List TableReadPlan
  deriving DecidableEq, Repr

/-- The dictionary stored under `COORDINATOR_KEY`. -/
structure GenerationRecord where
  version : Int
  generationId : String
  fence : Int
  leaseToken : String
  shardCount : Int
  expiresAtMs : Int
  sourceConsistency : String
  plan : Option PlanEntries
  deriving DecidableEq, Repr

/-- `_plan_payload`: the plans in the order of their table identifiers. -/
def planPayload (plans : List TableReadPlan) : List TableReadPlan :=
  plans.insertionSort fun left right => left.tableId ≤ right.tableId

/-- `_plan_digest`, over a digest of ordered plans. -/
def planDigest (digest : List TableReadPlan → String) (plans : List TableReadPlan) : String :=
  digest (planPayload plans)

/-- `_record`. -/
def toRecord (context : GenerationContext) : GenerationRecord where
  version := context.version
  generationId := context.generationId
  fence := context.fence
  leaseToken := context.leaseToken
  shardCount := context.shardCount
  expiresAtMs := context.expiresAtMs
  sourceConsistency := context.sourceConsistency
  plan := if 2 ≤ context.version then
      some ⟨context.planState, context.planSha256, planPayload context.tablePlans⟩
    else none

/-- `_context`. A missing or empty stored digest is replaced by the computed
one; any other mismatch is a `GenerationError`, reported as `none`. -/
def toContext (digest : List TableReadPlan → String) (record : GenerationRecord) :
    Option GenerationContext :=
  let entries := record.plan.getD ⟨.ready, "", []⟩
  let plans := if 2 ≤ record.version then entries.tablePlans else []
  let stored := if entries.planSha256 = "" then planDigest digest plans else entries.planSha256
  let context : GenerationContext :=
    { generationId := record.generationId
      fence := record.fence
      leaseToken := record.leaseToken
      shardCount := record.shardCount
      expiresAtMs := record.expiresAtMs
      sourceConsistency := record.sourceConsistency
      version := record.version
      planState := if 2 ≤ record.version then entries.planState else .ready
      tablePlans := plans
      planSha256 := if 2 ≤ record.version then stored else "" }
  if 2 ≤ record.version ∧ context.planSha256 ≠ planDigest digest plans then none else some context

end ShortcutProxy.Generation
