import ShortcutProxy.Digest
import ShortcutProxy.Generation
import ShortcutProxy.Journal
import ShortcutProxy.Records
import ShortcutProxy.TableMetadata

/-!
# Durable queue records

The namespaces that `DurableWorkQueue` keeps under `_control/work-queue/v1`,
together with the parts of the shared artifact store it reads beside them: the
data objects, the metadata objects of tables and the generation coordinator
record. Keys are typed rather
than spelled out as paths, which is exact because a path is determined by its
parts once the digest is collision-free.

Every change to the store is a `Write`, and every write is recorded with the
function of the source that made it. The store is thus a view of its journal,
and a statement about successive durable values of a record is a statement
about the journal.

Version markers and the Manager stamp that `_write` adds to each record are
left out: no function of the queue reads them back.
-/
namespace ShortcutProxy.WorkQueue

open Contract Generation Records TableMetadata

/-- The contents of one stored object. -/
abbrev Bytes := List UInt8

/-- The functions outside this repository on which the queue relies: SHA-256 of
texts, of objects and of encoded plans, the row count in a Parquet footer, and
the redaction of credentials from an error text. -/
structure Environment where
  digest : Digest
  contentHash : Bytes → String
  parquetRows : Bytes → Option Int
  redactDbUrl : String → String
  planDigest : List TableReadPlan → String

/-- `_hash`. -/
def Environment.hash (env : Environment) (text : String) : String := env.digest.hash text

/-- `_safe_error`. -/
def Environment.safeError (env : Environment) (text : String) : String :=
  .ofList ((env.redactDbUrl text).toList.take 500)

/-- An environment that hides nothing: digests spell out what they digest and a
file has one row for each byte. -/
def Environment.transparent : Environment where
  digest := .escaped
  contentHash := fun contents => .ofList (contents.map fun byte => .ofNat byte.toNat)
  parquetRows := fun contents => some contents.length
  redactDbUrl := id
  planDigest := fun plans => ",".intercalate (plans.map TableReadPlan.tableId)

/-- The clamped limits of a queue, as its constructor stores them. -/
structure Settings where
  taskLeaseSeconds : Int
  maxAttempts : Int
  retryBackoffSeconds : Int
  retryMaxSeconds : Int
  lease_positive : 1 ≤ taskLeaseSeconds
  attempts_positive : 1 ≤ maxAttempts
  backoff_nonnegative : 0 ≤ retryBackoffSeconds
  backoff_le_max : retryBackoffSeconds ≤ retryMaxSeconds

/-- `DurableWorkQueue.__init__`: any four numbers are clamped into range. -/
def Settings.clamped (taskLeaseSeconds maxAttempts retryBackoffSeconds retryMaxSeconds : Int) :
    Settings where
  taskLeaseSeconds := max 1 taskLeaseSeconds
  maxAttempts := max 1 maxAttempts
  retryBackoffSeconds := max 0 retryBackoffSeconds
  retryMaxSeconds := max (max 0 retryBackoffSeconds) retryMaxSeconds
  lease_positive := le_max_left _ _
  attempts_positive := le_max_left _ _
  backoff_nonnegative := le_max_left _ _
  backoff_le_max := le_max_left _ _

/-- The `claim` entry of a task record. -/
structure Claim where
  agentId : String
  agentLeaseHash : String
  claimToken : String
  claimedAtMs : Int
  expiresAtMs : Int
  managerOwner : String
  managerFence : Int
  membershipVersion : Int
  workerFence : Int
  stagingKey : String
  leaseSeconds : Int
  deriving DecidableEq, Repr

/-- The `result` entry of a task or result record. The two places that write it
fill different keys; a missing key is `none`. -/
structure SavedResult where
  agentId : String
  attempt : Int
  sizeBytes : Option Int := none
  recordCount : Option Int := none
  contentHash : Option String := none
  s3Etag : Option String := none
  outputKey : Option String := none
  completedAtMs : Int
  errorCode : String
  membershipVersion : Option Int := none
  workerFence : Option Int := none
  deriving DecidableEq, Repr

/-- One durable task. -/
structure TaskRecord where
  taskId : String
  requestId : String
  state : TaskState
  attempt : Int
  maxAttempts : Int
  availableAtMs : Int
  claim : Option Claim
  task : MaterializeTask
  result : Option SavedResult
  lastError : String
  createdAtMs : Int
  updatedAtMs : Int
  revision : Int
  dispatchStatus : Option String := none
  reassignmentCount : Int := 0
  deriving DecidableEq, Repr

/-- One durable materialization request. -/
structure RequestRecord where
  requestId : String
  idempotencyKey : String
  requestedKey : String
  table : String
  epoch : Int
  tableFormat : String
  datasetId : String
  tenantId : String
  generationId : String
  generationFence : Int
  planSha256 : String
  deadlineMs : Int
  taskIds : List String
  state : TaskState
  published : Bool
  snapshotKey : Option Versioned
  error : String
  createdAtMs : Int
  updatedAtMs : Int
  ready : Bool
  deriving DecidableEq, Repr

/-- The durable answer to one accepted attempt. -/
structure ResultRecord where
  taskId : String
  attempt : Int
  state : TaskState
  result : SavedResult
  agentLeaseHash : String
  deriving DecidableEq, Repr

/-- Whether a worker of a generation is still part of it. -/
inductive WorkerState where
  | active
  | departed
  deriving DecidableEq, Repr

/-- One worker of a generation's membership. -/
structure Worker where
  agentId : String
  leaseHash : String
  capacity : Int
  state : WorkerState
  workerFence : Int
  joinedAtMs : Int
  lastSeenMs : Int
  deriving DecidableEq, Repr

/-- How a membership may change during its generation. -/
inductive MembershipPolicy where
  | fixed
  | elastic
  deriving DecidableEq, Repr

/-- The workers of one generation. -/
structure Membership where
  generationId : String
  generationFence : Int
  membershipVersion : Int
  policy : MembershipPolicy
  workers : Table String Worker
  reassignmentCount : Int
  lastChangeReason : String
  createdAtMs : Int
  updatedAtMs : Int

/-- The shared store as the queue sees it. Result records are keyed by task and
attempt, snapshots by table and epoch, and data objects by their full key. -/
structure Store where
  requests : Table String RequestRecord := ∅
  tasks : Table String TaskRecord := ∅
  results : Table Versioned ResultRecord := ∅
  snapshots : Table Versioned SnapshotManifest := ∅
  idempotency : Table String String := ∅
  memberships : Table String Membership := ∅
  objects : Table String Bytes := ∅
  metadata : Table String MetadataObject := ∅
  coordinator : Option GenerationRecord := none

/-- The arguments of one `claim_task` call, with the token it draws. -/
structure ClaimCall where
  taskId : String
  agentId : String
  agentLeaseId : String
  managerOwner : String
  managerFence : Int
  membershipVersion : Int := 0
  workerFence : Int := 0
  nowMs : Int
  leaseSeconds : Option Int := none
  claimToken : String
  deriving DecidableEq, Repr

/-- The function of the source that makes a write. A claim is recorded with the
call that made it. `outside` stands for every other component. -/
inductive Writer where
  | createRequest
  | claimTask (call : ClaimCall)
  | renewAgentClaims
  | releaseClaim
  | acceptResult
  | expireClaims
  | refreshRequests
  | reassignFencedClaims
  | fenceClaims
  | cancelRequest
  | retryTask
  | recover
  | setDispatchStatus
  | pruneTerminal
  | pruneStaging
  | publishSnapshot
  | outside
  deriving DecidableEq, Repr

/-- One durable write. A missing record is a deletion. -/
inductive Write where
  | request (requestId : String) (record : Option RequestRecord)
  | task (taskId : String) (record : Option TaskRecord)
  | result (key : Versioned) (record : Option ResultRecord)
  | snapshot (key : Versioned) (manifest : SnapshotManifest)
  | idempotency (key : String) (requestId : Option String)
  | membership (generationId : String) (membership : Membership)
  | object (key : String) (contents : Option Bytes)
  | metadata (key : String) (object : MetadataObject)
  | coordinator (record : Option GenerationRecord)

/-- The effect of one write on the store. -/
def Store.apply (store : Store) : Write → Store
  | .request requestId record => { store with requests := assign store.requests requestId record }
  | .task taskId record => { store with tasks := assign store.tasks taskId record }
  | .result key record => { store with results := assign store.results key record }
  | .snapshot key manifest => { store with snapshots := assign store.snapshots key (some manifest) }
  | .idempotency key requestId =>
    { store with idempotency := assign store.idempotency key requestId }
  | .membership generationId membership =>
    { store with memberships := assign store.memberships generationId (some membership) }
  | .object key contents => { store with objects := assign store.objects key contents }
  | .metadata key object => { store with metadata := assign store.metadata key (some object) }
  | .coordinator record => { store with coordinator := record }

/-- The store and the writes that produced it, newest first. -/
structure QueueState where
  store : Store := {}
  journal : List (Writer × Write) := []

/-- Make one write and record it. -/
def QueueState.perform (state : QueueState) (writer : Writer) (write : Write) : QueueState where
  store := state.store.apply write
  journal := (writer, write) :: state.journal

@[simp] theorem QueueState.perform_store (state : QueueState) (writer : Writer) (write : Write) :
    (state.perform writer write).store = state.store.apply write := rfl

@[simp] theorem QueueState.perform_journal (state : QueueState) (writer : Writer)
    (write : Write) : (state.perform writer write).journal = (writer, write) :: state.journal := rfl

/-- The task writes of a journal. -/
def taskJournal (journal : List (Writer × Write)) :
    List (Journal.Entry String Writer TaskRecord) :=
  journal.filterMap fun
    | (writer, .task taskId record) => some ⟨taskId, writer, record⟩
    | _ => none

@[simp] theorem taskJournal_nil : taskJournal [] = [] := rfl

@[simp] theorem taskJournal_cons_task (writer : Writer) (taskId : String)
    (record : Option TaskRecord) (older : List (Writer × Write)) :
    taskJournal ((writer, .task taskId record) :: older) =
      ⟨taskId, writer, record⟩ :: taskJournal older := rfl

/-- Only task writes appear in the task journal. -/
theorem taskJournal_cons_of_ne (writer : Writer) (write : Write) (older : List (Writer × Write))
    (other : ∀ taskId record, write ≠ .task taskId record) :
    taskJournal ((writer, write) :: older) = taskJournal older := by
  cases write with
  | task taskId record => exact absurd rfl (other taskId record)
  | _ => rfl

/-- The stored tasks are what the latest task writes left. -/
def QueueState.Journaled (state : QueueState) : Prop :=
  ∀ taskId, state.store.tasks[taskId]? = Journal.latest taskId (taskJournal state.journal)

theorem QueueState.Journaled.perform {state : QueueState} (journaled : state.Journaled)
    (writer : Writer) (write : Write) : (state.perform writer write).Journaled := by
  intro taskId
  cases write with
  | task other record =>
    simp only [perform_store, perform_journal, Store.apply, taskJournal_cons_task,
      Journal.latest, getElem?_assign, journaled taskId]
  | _ => exact journaled taskId

end ShortcutProxy.WorkQueue
