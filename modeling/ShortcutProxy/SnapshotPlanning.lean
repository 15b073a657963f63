import ShortcutProxy.Coordinator

/-!
# Preparing and hydrating a snapshot generation

The coordinator acquires a read point for each table, plans the table under it and publishes
all plans. A worker builds its snapshots from the published plans, and joins the read points
of a distributed provider. Both calls can be left by an exception after any of their steps.

A step's answer is an argument: what the source, the provider or the store returns, or what
it raises. The read points acquired by a call, or the sessions joined by it, are numbered in
the order in which they were opened, so an outcome can say which of them were closed.
Aborting a read point closes its connection also when it raises.
-/
namespace ShortcutProxy.SnapshotPlanning

open Generation List

/-- What leaves a step. `except Exception` does not catch the cancellation of a task. -/
inductive Raised where
  | exception (message : String)
  | cancelled
  deriving DecidableEq, Repr

/-- How a call ends, how many read points or sessions it opened, and which it closed. -/
structure Outcome (α : Type) where
  result : Except Raised α
  opened : Nat
  closed : List Nat

/-- Everything that the call opened is closed again. -/
def Outcome.Released {α : Type} (outcome : Outcome α) : Prop :=
  ∀ handle < outcome.opened, handle ∈ outcome.closed

/-- The fields of a configured table that name its source object. -/
structure TableDef where
  connectionId : String
  sourceTable : String
  deriving DecidableEq, Repr

/-- `table_read_id`. -/
def tableReadId (table : TableDef) : String :=
  table.connectionId ++ "::" ++ table.sourceTable

/-- Assignment to a key of a dictionary, which keeps the place of a key it holds. -/
def setItem {υ : Type} (items : List (String × υ)) (key : String) (value : υ) :
    List (String × υ) :=
  if key ∈ items.map Prod.fst then
    items.map fun item => if item.1 = key then (key, value) else item
  else items ++ [(key, value)]

/-! ## The coordinator -/

/-- A table's snapshot after its ranges were planned, as far as a plan reads it. -/
structure PlannedSplits where
  splitCount : Int
  splitStrategy : String
  splitKey : String
  splitKeyType : Option String
  ranges : List (Boundary × Boundary)
  deriving DecidableEq, Repr

/-- `_plan_from_snapshot`. -/
def planFromSnapshot (table : TableDef) (descriptor : ReadPointDescriptor)
    (planned : PlannedSplits) : TableReadPlan where
  version := 1
  tableId := tableReadId table
  descriptor := descriptor
  splitCount := planned.splitCount
  splitStrategy := planned.splitStrategy
  splitKey := planned.splitKey
  splitKeyType := planned.splitKeyType
  ranges := planned.ranges

/-- What the steps for one table answer: finding and validating its provider, acquiring its
read point, and planning its splits. -/
structure TableAnswers where
  validated : Except Raised Unit
  acquired : Except Raised ReadPointDescriptor
  planned : Except Raised PlannedSplits

/-- What the steps after the last table answer: the lease check, the second read with the
swap and its confirmation, the decoration of the splits, and `fail_generation_plan`. -/
structure PublicationAnswers where
  leased : Except Raised Unit
  committed : Except Raised Unit
  decorated : Except Raised Unit
  failed : Except Raised Unit

/-- The `owners` dictionary, the number of read points acquired so far, and the plans. -/
structure Preparation where
  owners : List (String × Nat) := []
  acquired : Nat := 0
  plans : List TableReadPlan := []

/-- The preparation with the read point of one more table. -/
def Preparation.acquire (preparation : Preparation) (tableId : String) : Preparation :=
  { preparation with
    owners := setItem preparation.owners tableId preparation.acquired
    acquired := preparation.acquired + 1 }

/-- The loop of `prepare_snapshot_generation`, with what ended it early. -/
def prepareTables (preparation : Preparation) :
    List (TableDef × TableAnswers) → Preparation × Option Raised
  | [] => (preparation, none)
  | (table, answers) :: rest =>
    match answers.validated, answers.acquired with
    | .error raised, _ => (preparation, some raised)
    | .ok (), .error raised => (preparation, some raised)
    | .ok (), .ok descriptor =>
      let held := preparation.acquire (tableReadId table)
      match answers.planned with
      | .error raised => (held, some raised)
      | .ok planned =>
        prepareTables
          { held with plans := held.plans ++ [planFromSnapshot table descriptor planned] }
          rest

variable (digest : List TableReadPlan → String) (context : GenerationContext)

/-- `publish_generation_plan` and the decoration of the splits. -/
def publishPlans (plans : List TableReadPlan) (answers : PublicationAnswers) :
    Except Raised GenerationContext := do
  answers.leased
  let ready ← (readyContext digest context plans).mapError .exception
  answers.committed
  answers.decorated
  return ready

/-- The body of the `try`: the ready context with the plans in the order of the tables,
which is the order of the coordinator's snapshots. -/
def attempt (tables : List (TableDef × TableAnswers)) (answers : PublicationAnswers) :
    Preparation × Except Raised (GenerationContext × List TableReadPlan) :=
  match prepareTables {} tables with
  | (preparation, some raised) => (preparation, .error raised)
  | (preparation, none) =>
    (preparation,
      (publishPlans digest context preparation.plans answers).map (·, preparation.plans))

/-- `prepare_snapshot_generation`. -/
def prepareSnapshotGeneration (tables : List (TableDef × TableAnswers))
    (answers : PublicationAnswers) :
    Outcome (GenerationContext × List TableReadPlan) :=
  match attempt digest context tables answers with
  | (preparation, .error (.exception message)) =>
    { result := match answers.failed with
        | .error raised => .error raised
        | .ok () => .error (.exception message)
      opened := preparation.acquired
      closed := (preparation.owners.map Prod.snd).reverse }
  | (preparation, result) => ⟨result, preparation.acquired, []⟩

/-! ## A worker -/

section Failures

variable (digest : List TableReadPlan → String) (context : GenerationContext)

end Failures

/-- A read point of the first generation. -/
def firstReadPoint (tableId : String) : ReadPointDescriptor :=
  ⟨1, "postgresql", "c", tableId, 0, "g", 1, 0, none, some "s", false⟩

/-- A published generation with the plans of two tables. -/
def twoPlans : GenerationContext where
  generationId := "g"
  fence := 1
  leaseToken := "l"
  shardCount := 2
  expiresAtMs := 0
  tablePlans := [planFromSnapshot ⟨"c", "t"⟩ (firstReadPoint "c::t") ⟨1, "modulo", "k", none, []⟩,
    planFromSnapshot ⟨"c", "u"⟩ (firstReadPoint "c::u") ⟨1, "modulo", "k", none, []⟩]

end ShortcutProxy.SnapshotPlanning
