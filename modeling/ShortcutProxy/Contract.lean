import Mathlib

/-!
# The Manager and Agent contract

Message shapes and the task life cycle of `control/contract.py`. Enumerations
that travel as plain strings are inductive types here. Optional dictionary
entries with a default are ordinary fields holding that default, and the places
where a round trip through `to_dict` and `from_dict` is not the identity are
definitions of their own. The column schema of a task is not represented:
nothing in the queue reads it.
-/
namespace ShortcutProxy.Contract

/-- `TASK_STATES`. Requests use the same values for their own state. -/
inductive TaskState where
  | queued
  | claimed
  | succeeded
  | retryWait
  | failed
  | expired
  | cancelled
  deriving DecidableEq, Repr

/-- The string under which a state is stored and reported. -/
def TaskState.text : TaskState → String
  | .queued => "QUEUED"
  | .claimed => "CLAIMED"
  | .succeeded => "SUCCEEDED"
  | .retryWait => "RETRY_WAIT"
  | .failed => "FAILED"
  | .expired => "EXPIRED"
  | .cancelled => "CANCELLED"

/-- `TASK_TERMINAL_STATES`. -/
def taskTerminalStates : List TaskState := [.succeeded, .failed, .cancelled]

/-- `TASK_TRANSITIONS`. -/
def taskTransitions : TaskState → List TaskState
  | .queued => [.claimed, .failed, .cancelled]
  | .claimed => [.succeeded, .retryWait, .failed, .expired, .cancelled]
  | .retryWait => [.queued, .failed, .cancelled]
  | .expired => [.queued, .failed, .cancelled]
  | .succeeded => []
  | .failed => []
  | .cancelled => []

/-- `valid_task_transition`. -/
def validTaskTransition (current target : TaskState) : Bool :=
  target ∈ taskTransitions current

/-- Membership in `TASK_TERMINAL_STATES`, as the queue tests it. -/
def TaskState.terminal (state : TaskState) : Bool :=
  state ∈ taskTerminalStates

/-- `RESULT_CODES`, the reason codes of an acknowledgement. -/
inductive ResultCode where
  | accepted
  | duplicate
  | staleClaim
  | staleGeneration
  | wrongOwner
  | invalidOutput
  | conflict
  | rejected
  deriving DecidableEq, Repr

/-- A half-open range on the integer split key. -/
structure KeyRange where
  lo : Int
  hi : Int
  deriving DecidableEq, Repr

/-- A materialized data file in the artifact store. -/
structure SplitRef where
  objectKey : String
  sizeBytes : Int
  recordCount : Int
  contentHash : String
  range : Option KeyRange := none
  deriving DecidableEq, Repr

/-- The published state of a table at one epoch. -/
structure SnapshotManifest where
  table : String
  epoch : Int
  tableFormat : String
  splits : List SplitRef := []
  metadataKeys : List String := []
  generationId : String := ""
  generationFence : Int := 0
  planSha256 : String := ""
  publishedAtMs : Int := 0
  requestId : String := ""
  datasetId : String := ""
  producedAtMs : Int := 0
  tenantId : String := ""
  deriving DecidableEq, Repr

/-- The work handed to an Agent for one split. -/
structure MaterializeTask where
  table : String
  epoch : Int
  splitIndex : Int
  sourceTable : String
  outputKey : String
  range : Option KeyRange := none
  taskId : String := ""
  requestId : String := ""
  claimToken : String := ""
  attempt : Int := 0
  claimExpiresAtMs : Int := 0
  connectionId : String := "default"
  connectionFingerprint : String := ""
  generationId : String := ""
  generationFence : Int := 0
  planSha256 : String := ""
  tableFormat : String := ""
  deadlineMs : Int := 0
  numSplits : Int := 1
  keyColumn : String := ""
  splitStrategy : String := ""
  membershipVersion : Int := 0
  workerFence : Int := 0
  tenantId : String := ""
  deriving DecidableEq, Repr

/-- Reading a stored payload back with `MaterializeTask.from_dict`. `to_dict`
drops empty and zero entries, so the two fields whose default is not empty
return as that default. -/
def MaterializeTask.fromDict (payload : MaterializeTask) : MaterializeTask :=
  { payload with
    connectionId := if payload.connectionId = "" then "default" else payload.connectionId
    numSplits := if payload.numSplits = 0 then 1 else payload.numSplits }

/-- An Agent's report on one attempt. -/
structure TaskResult where
  agentId : String
  table : String
  epoch : Int
  splitIndex : Int
  ok : Bool
  sizeBytes : Int := 0
  recordCount : Int := 0
  contentHash : String := ""
  error : String := ""
  taskId : String := ""
  requestId : String := ""
  claimToken : String := ""
  attempt : Int := 0
  generationId : String := ""
  generationFence : Int := 0
  planSha256 : String := ""
  retryable : Bool := false
  completedAtMs : Int := 0
  errorCode : String := ""
  membershipVersion : Int := 0
  workerFence : Int := 0
  s3Etag : String := ""
  deriving DecidableEq, Repr

/-- The Manager's answer to a report. A missing state is the empty string of the
source, returned when no task record exists. -/
structure Ack where
  ok : Bool := true
  state : Option TaskState := none
  duplicate : Bool := false
  terminal : Bool := false
  reasonCode : ResultCode
  deriving DecidableEq, Repr

end ShortcutProxy.Contract
