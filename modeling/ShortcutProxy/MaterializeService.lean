import ShortcutProxy.QueueOperations

/-!
# Materialization requests on a Manager

`materialize_for_key` turns a miss on an object of a table into a queue request,
waits for its tasks, copies their results into the Manager's snapshot of the
table, writes the table's metadata objects and publishes the snapshot. This
module runs any number of such calls for one table, on any number of Managers
that share a store, one await or store access at a time and in any order.

Each Manager has its own snapshot in memory and its own publication locks, one
for each request. Everything else that happens to the store meanwhile, such as
claims, results, sweeps and new generations, is an operation of the queue. A call
may be abandoned at any point, which covers timeouts, exceptions and crashes.

`publish_snapshot` is a single step here: what may happen inside it is the
subject of `ShortcutProxy.SnapshotPublication`. Whether the Manager's term is
live at that moment is an argument of the step. The placement check before the
request and the copying of cached data files are left out, as neither touches
metadata. Federation is off.
-/
namespace ShortcutProxy.MaterializeService

open Contract Generation Records TableMetadata WorkQueue

/-- `TABLE_FORMAT`. -/
inductive TableFormat where
  | iceberg
  | delta
  deriving DecidableEq, Repr

/-- The text of a table format in queue records. -/
def TableFormat.text : TableFormat → String
  | .iceberg => "iceberg"
  | .delta => "delta"

/-- What a Manager is configured with for the table. -/
structure Config where
  format : TableFormat
  connectionId : String
  sourceTable : String
  connectionFingerprint : String
  keyColumn : String
  splitStrategy : String
  tenantId : String
  requestTimeoutSeconds : Int
  encodedLength : MetadataObject → Int

/-- A snapshot as `build_table_snapshot` registers it: nothing is built from it
yet and its splits have different indices. -/
structure FreshSnapshot where
  snap : SnapshotState
  unbuilt : snap.metadataBytes = none ∧ snap.manifestListBytes = none ∧
    snap.manifestFileBytes = none ∧ snap.deltaCommit = none
  unassigned : ∀ split ∈ snap.splits, split.canonicalObjectKey = none
  distinct : (snap.splits.map SplitDescriptor.splitIndex).Nodup

/-- The stable key of a split. -/
def canonicalKey (split : SplitDescriptor) : String :=
  split.canonicalObjectKey.getD split.objectKey

/-- Remember the key of every split before a publication replaces it. -/
def rememberKeys (snap : SnapshotState) : SnapshotState :=
  { snap with
    splits := snap.splits.map fun split =>
      { split with canonicalObjectKey := some (canonicalKey split) } }

/-- The task of one split. -/
def taskOf (config : Config) (snap : SnapshotState) (generation : GenerationContext) (now : Int)
    (split : SplitDescriptor) : MaterializeTask where
  table := snap.name
  epoch := snap.version
  splitIndex := split.splitIndex
  sourceTable := config.sourceTable
  outputKey := canonicalKey split
  range := split.range
  connectionId := config.connectionId
  connectionFingerprint := config.connectionFingerprint
  generationId := generation.generationId
  generationFence := generation.fence
  planSha256 := generation.planSha256
  deadlineMs := now + 300000
  numSplits := snap.splits.length
  keyColumn := config.keyColumn
  splitStrategy := config.splitStrategy
  tenantId := config.tenantId

/-- The `create_request` call for the whole table. -/
def createCall (config : Config) (snap : SnapshotState) (generation : GenerationContext)
    (requestedKey : String) (now : Int) : CreateCall where
  requestedKey := requestedKey
  table := snap.name
  epoch := snap.version
  tableFormat := config.format.text
  generationId := generation.generationId
  generationFence := generation.fence
  planSha256 := generation.planSha256
  tasks := snap.splits.map (taskOf config snap generation now)
  deadlineMs := now + config.requestTimeoutSeconds * 1000
  createdAt := now

/-- What a publication has gathered so far. -/
structure Gathered where
  generation : GenerationContext
  terminal : RequestRecord
  splitRefs : List SplitRef := []
  outputKeys : List String := []
  metadataKeys : List String := []

/-- The metadata objects of a table. -/
inductive ObjectKind where
  | metadata
  | manifestList
  | manifestFile
  | versionHint
  | deltaCommit
  deriving DecidableEq, Repr

/-- The objects `_publish_snapshot_objects` writes, in its order. -/
def objectKinds : TableFormat → List ObjectKind
  | .iceberg => [.metadata, .manifestList, .manifestFile, .versionHint]
  | .delta => [.deltaCommit]

/-- Build one object: its key, what it says, and the snapshot that remembers it. -/
def buildObject (encodedLength : MetadataObject → Int) (snap : SnapshotState) :
    ObjectKind → String × MetadataObject × SnapshotState
  | .metadata => (snap.metadataKey, buildMetadataJson snap)
  | .manifestList => (snap.manifestListKey, buildManifestList encodedLength snap)
  | .manifestFile => (snap.manifestFileKey, buildManifestFile snap)
  | .versionHint => (snap.versionHintKey, .versionHint snap.version, snap)
  | .deltaCommit => (deltaLogKey snap, buildDeltaCommit snap)

/-- Change the first element that satisfies a test. -/
def updateFirst {α : Type} (test : α → Bool) (change : α → α) : List α → Option (List α)
  | [] => none
  | item :: rest =>
    if test item then some (change item :: rest)
    else (updateFirst test change rest).map (item :: ·)

/-- The split that a task was created for. -/
def matchesTask (task : MaterializeTask) (split : SplitDescriptor) : Bool :=
  split.splitIndex = task.splitIndex ∧ split.canonicalObjectKey = some task.outputKey

/-- A split after the result of its task was copied into it. -/
def filled (result : SavedResult) (outputKey : String) (split : SplitDescriptor) :
    SplitDescriptor :=
  { split with
    objectKey := outputKey
    fileSizeInBytes := result.sizeBytes
    recordCount := result.recordCount
    contentHash := result.contentHash
    s3Etag := result.s3Etag }

/-- Copy the result of one task into the snapshot. A result that belongs to no
split, or lies outside the staging directory of its task, is an error. -/
def assignResult (env : Environment) (gathered : Gathered) (taskId : String)
    (task : MaterializeTask)
    (result : SavedResult) (snap : SnapshotState) : Option (Gathered × SnapshotState) :=
  let outputKey := result.outputKey.getD ""
  match updateFirst (matchesTask task) (filled result outputKey) snap.splits with
  | none => none
  | some splits =>
    let staged := stagingTaskPrefix env task.outputKey gathered.generation.generationId taskId
    if staged.toList.isPrefixOf outputKey.toList then
      some ({ gathered with
          outputKeys := gathered.outputKeys ++ [task.outputKey]
          splitRefs := gathered.splitRefs ++ [{
            objectKey := outputKey
            sizeBytes := result.sizeBytes.getD 0
            recordCount := result.recordCount.getD 0
            contentHash := result.contentHash.getD ""
            range := task.range }] },
        { snap with splits := splits })
    else none

/-- The manifest that a call publishes. -/
def manifestOf (config : Config) (snap : SnapshotState) (gathered : Gathered) (now : Int) :
    SnapshotManifest where
  table := snap.name
  epoch := snap.version
  tableFormat := config.format.text
  splits := gathered.splitRefs
  metadataKeys := gathered.metadataKeys
  generationId := gathered.generation.generationId
  generationFence := gathered.generation.fence
  planSha256 := gathered.generation.planSha256
  publishedAtMs := now
  requestId := gathered.terminal.requestId
  datasetId := gathered.terminal.datasetId
  producedAtMs := gathered.terminal.createdAtMs
  tenantId := gathered.terminal.tenantId

/-- A call by what it does next. -/
inductive Phase where
  | generation
  | create (generation : GenerationContext)
  | wait (generation : GenerationContext) (requestId : String)
  | poll (generation : GenerationContext) (requestId : String)
  | lock (generation : GenerationContext) (terminal : RequestRecord)
  | existing (generation : GenerationContext) (terminal : RequestRecord)
  | pruneExisting (generation : GenerationContext) (terminal : RequestRecord)
  | read (gathered : Gathered) (taskIds : List String)
  | assign (gathered : Gathered) (taskId : String) (task : MaterializeTask) (result : SavedResult)
      (taskIds : List String)
  | build (gathered : Gathered) (kinds : List ObjectKind)
  | put (gathered : Gathered) (key : String) (object : MetadataObject) (kinds : List ObjectKind)
  | publish (gathered : Gathered)
  | prune (gathered : Gathered)

/-- A call of `materialize_for_key`. -/
structure Call (ι : Type) where
  number : Nat
  manager : ι
  requestedKey : String

/-- What a call did to the metadata of the table, and how its publication ended. -/
inductive Event where
  | changed (number : Nat) (key : String)
  | committed (number : Nat)
  | rejected (number : Nat)
  deriving DecidableEq, Repr

/-- The Managers, their calls and the store they share. -/
structure Service (ι : Type) where
  queue : QueueState := {}
  memory : ι → SnapshotState
  calls : List (Call ι × Phase) := []
  started : Nat := 0
  history : List Event := []

/-- The request whose publication lock a call holds. -/
def Phase.lockHeld : Phase → Option String
  | .existing _ terminal | .pruneExisting _ terminal => some terminal.requestId
  | .read gathered _ | .assign gathered _ _ _ _ | .build gathered _ | .put gathered _ _ _
  | .publish gathered | .prune gathered => some gathered.terminal.requestId
  | .generation | .create _ | .wait _ _ | .poll _ _ | .lock _ _ => none

/-- How a call goes on after one step. -/
structure Outcome where
  queue : QueueState
  snap : SnapshotState
  next : Option Phase
  events : List Event := []

section Steps

variable {ι : Type} [DecidableEq ι] (env : Environment) (settings : Settings) (config : Config)

/-- The `prune_staging` call of `_prune_generation_staging`. -/
def existingPruning (queue : QueueState) (generation : GenerationContext)
    (terminal : RequestRecord) : Operation :=
  let records := terminal.taskIds.filterMap fun taskId => queue.store.tasks[taskId]?
  .pruneStaging generation.generationId
    ((records.map fun record => record.task.outputKey).filter (· ≠ ""))
    ((records.filterMap fun record => record.result.bind SavedResult.outputKey).filter (· ≠ ""))

/-- One step of `materialize_for_key`. A failure ends the call, and with it the
lock it may hold. -/
def Call.advance (service : Service ι) (call : Call ι) (now : Int) (live : Bool) :
    Phase → Outcome :=
  let queue := service.queue
  let snap := service.memory call.manager
  fun
  | .generation =>
    match currentGeneration env queue.store with
    | .ok (some context) =>
      { queue := queue, snap := rememberKeys snap, next := some (.create context) }
    | _ => { queue := queue, snap := snap, next := none }
  | .create generation =>
    let create := createCall config snap generation call.requestedKey now
    { queue := execute env settings queue (.createRequest create)
      snap := snap
      next := (createRequest env settings create queue).1.toOption.map fun request =>
        .wait generation request.requestId }
  | .wait generation requestId =>
    { queue := execute env settings queue (.expireClaims now)
      snap := snap
      next := some (.poll generation requestId) }
  | .poll generation requestId =>
    { queue := queue
      snap := snap
      next := queue.store.requests[requestId]?.bind fun request =>
        if !request.state.terminal then some (.wait generation requestId)
        else if request.state = .succeeded then some (.lock generation request)
        else none }
  | .lock generation terminal =>
    { queue := queue
      snap := snap
      next := some <|
        if service.calls.any fun other =>
            other.1.manager = call.manager ∧ other.2.lockHeld = some terminal.requestId then
          .lock generation terminal
        else .existing generation terminal }
  | .existing generation terminal =>
    { queue := queue
      snap := snap
      next := some <|
        if queue.store.snapshots[(⟨snap.name, snap.version⟩ : Versioned)]?.any fun manifest =>
            manifest.requestId = terminal.requestId then
          .pruneExisting generation terminal
        else .read { generation := generation, terminal := terminal } terminal.taskIds }
  | .pruneExisting generation terminal =>
    { queue := execute env settings queue (existingPruning queue generation terminal)
      snap := snap
      next := none }
  | .read gathered [] =>
    { queue := queue
      snap := if config.format = .delta then invalidateTable snap else snap
      next := some (.build gathered (objectKinds config.format)) }
  | .read gathered (taskId :: taskIds) =>
    { queue := queue
      snap := snap
      next := queue.store.tasks[taskId]?.bind fun record =>
        record.result.map fun result => .assign gathered taskId record.task result taskIds }
  | .assign gathered taskId task result taskIds =>
    match assignResult env gathered taskId task result snap with
    | none => { queue := queue, snap := snap, next := none }
    | some (extended, assigned) =>
      { queue := queue, snap := assigned, next := some (.read extended taskIds) }
  | .build gathered [] => { queue := queue, snap := snap, next := some (.publish gathered) }
  | .build gathered (kind :: kinds) =>
    let built := buildObject config.encodedLength snap kind
    { queue := queue, snap := built.2.2, next := some (.put gathered built.1 built.2.1 kinds) }
  | .put gathered key object kinds =>
    { queue := execute env settings queue (.changeMetadata key object)
      snap := snap
      next := some (.build { gathered with metadataKeys := gathered.metadataKeys ++ [key] } kinds)
      events := if queue.store.metadata[key]? = some object then []
        else [.changed call.number key] }
  | .publish gathered =>
    let manifest := manifestOf config snap gathered now
    let requestId := gathered.terminal.requestId
    if live ∧ (publishSnapshot env requestId manifest now queue).1.toOption.isSome then
      { queue := execute env settings queue (.publishSnapshot requestId manifest now)
        snap := snap
        next := some (.prune gathered)
        events := [.committed call.number] }
    else { queue := queue, snap := snap, next := none, events := [.rejected call.number] }
  | .prune gathered =>
    { queue := execute env settings queue (.pruneStaging gathered.generation.generationId
        gathered.outputKeys (gathered.splitRefs.map SplitRef.objectKey))
      snap := snap
      next := none }

/-- Operations of the queue that `materialize_for_key` does not make: it alone
creates requests, publishes snapshots and writes metadata of the table. -/
def external : Operation → Bool
  | .createRequest _ | .publishSnapshot _ _ _ | .changeMetadata _ _ => false
  | _ => true

/-- One event of the whole system. -/
inductive Action (ι : Type) where
  | call (manager : ι) (requestedKey : String)
  | advance (index : Nat) (now : Int) (live : Bool)
  | abandon (index : Nat)
  | queue (operation : Operation)

/-- The state after one event. -/
def Service.step (service : Service ι) : Action ι → Service ι
  | .call manager requestedKey =>
    { service with
      calls := (⟨service.started, manager, requestedKey⟩, .generation) :: service.calls
      started := service.started + 1 }
  | .advance index now live =>
    match service.calls[index]? with
    | none => service
    | some (call, phase) =>
      let outcome := call.advance env settings config service now live phase
      { service with
        queue := outcome.queue
        memory := Function.update service.memory call.manager outcome.snap
        calls := continueAt service.calls index (outcome.next.map (.mk call))
        history := outcome.events ++ service.history }
  | .abandon index => { service with calls := service.calls.eraseIdx index }
  | .queue operation =>
    if external operation then
      { service with queue := execute env settings service.queue operation }
    else service

/-- The state after a list of events, when every Manager has just registered the
table. -/
def run (fresh : FreshSnapshot) (actions : List (Action ι)) : Service ι :=
  actions.foldl (Service.step env settings config) { memory := fun _ => fresh.snap }

end Steps

end ShortcutProxy.MaterializeService
