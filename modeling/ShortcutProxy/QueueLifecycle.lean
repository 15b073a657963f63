import ShortcutProxy.WorkQueue

/-!
# Results, cancellation, recovery and publication

The remaining operations of `DurableWorkQueue`: accepting an Agent's report,
cancelling and retrying, recovering after a restart, publishing a snapshot, and
the two pruning operations. `accept_result` is cut at the points where the
source returns early, so that each part states one group of its checks.

`Operation` collects the calls that other components make on a queue, together
with the changes those components make to the shared store on their own. A run
is any list of operations.
-/
namespace ShortcutProxy.WorkQueue

open Contract Generation Records TableMetadata

/-! ## Cancelling and retrying -/

/-- `cancel_request`: the cancelled record of a task. -/
def cancelled (now : Int) (reason : String) (task : TaskRecord) : TaskRecord :=
  { task with
    state := .cancelled
    claim := none
    lastError := reason
    updatedAtMs := now
    revision := task.revision + 1 }

/-- One iteration of the loop in `cancel_request`. -/
def cancelTask (now : Int) (reason taskId : String) (state : QueueState) : QueueState :=
  match state.store.tasks[taskId]? with
  | none => state
  | some task =>
    if task.state.terminal then state
    else state.perform .cancelRequest (.task taskId (some (cancelled now reason task)))

/-- `cancel_request`. -/
def cancelRequest (env : Environment) (requestId reason : String) (now : Int)
    (state : QueueState) : Bool × QueueState :=
  match state.store.requests[requestId]? with
  | none => (false, state)
  | some request =>
    let stopped := request.taskIds.foldl
      (fun current taskId => cancelTask now (env.safeError reason) taskId current) state
    (true, stopped.perform .cancelRequest (.request requestId (some
      { request with
        state := .cancelled
        error := env.safeError reason
        updatedAtMs := now })))

/-- `retry_task`: the reset record. -/
def retried (now deadline : Int) (task : TaskRecord) : TaskRecord :=
  { task with
    state := .queued
    attempt := 0
    availableAtMs := now
    claim := none
    result := none
    lastError := ""
    task := { task.task with deadlineMs := deadline }
    updatedAtMs := now
    revision := task.revision + 1 }

/-- `retry_task`. -/
def retryTask (taskId : String) (now : Int) (state : QueueState) : Bool × QueueState :=
  match state.store.tasks[taskId]? with
  | none => (false, state)
  | some task =>
    if task.state ≠ .failed then (false, state)
    else match state.store.requests[task.requestId]? with
      | none => (false, state)
      | some request =>
        if request.published then (false, state)
        else
          let deadline := now + max 1000 (request.deadlineMs - request.createdAtMs)
          let reset := (deleteResults .retryTask taskId state).perform .retryTask
            (.task taskId (some (retried now deadline task)))
          (true, reset.perform .retryTask (.request request.requestId (some
            { request with
              state := .queued
              error := ""
              deadlineMs := deadline
              updatedAtMs := now })))

/-! ## Accepting a result -/

/-- The comparison of a replayed report with the stored answer. -/
def ResultRecord.repeats (prior : ResultRecord) (result : TaskResult) : Bool :=
  prior.result.agentId = result.agentId ∧
    prior.result.attempt = result.attempt ∧
    prior.result.sizeBytes.getD 0 = result.sizeBytes ∧
    prior.result.recordCount.getD 0 = result.recordCount ∧
    prior.result.contentHash.getD "" = result.contentHash ∧
    prior.result.s3Etag.getD "" = result.s3Etag ∧
    prior.result.errorCode = result.errorCode ∧
    prior.result.membershipVersion.getD 0 = result.membershipVersion ∧
    prior.result.workerFence.getD 0 = result.workerFence

variable (env : Environment) (settings : Settings)

/-- The answer to a report whose attempt already has a stored answer. -/
def priorAck (prior : ResultRecord) (result : TaskResult) (agentLeaseId : String) : Ack :=
  if prior.agentLeaseHash ≠ "" ∧ prior.agentLeaseHash ≠ env.hash agentLeaseId then
    { ok := false
      state := some prior.state
      terminal := prior.state.terminal
      reasonCode := .staleClaim }
  else
    { ok := prior.repeats result
      state := some prior.state
      duplicate := prior.repeats result
      terminal := prior.state.terminal
      reasonCode := if prior.repeats result then .duplicate else .conflict }

/-- The answer to a report for a task that has succeeded already. -/
def succeededAck (saved : Option SavedResult) (result : TaskResult) : Ack :=
  let same : Bool := saved.bind SavedResult.contentHash = some result.contentHash ∧
    (saved.bind SavedResult.sizeBytes).getD (-1) = result.sizeBytes ∧
    (saved.bind SavedResult.recordCount).getD (-1) = result.recordCount ∧
    (saved.bind SavedResult.s3Etag).getD "" = result.s3Etag
  { ok := same
    state := some .succeeded
    duplicate := same
    terminal := true
    reasonCode := if same then .duplicate else .conflict }

/-- An answer that leaves a live claim in place. -/
def refused (code : ResultCode) : Ack :=
  { ok := false, state := some .claimed, reasonCode := code }

/-- The answer to a report that does not belong to a live claim. -/
def staleAck (task : TaskRecord) : Ack :=
  { ok := false
    state := some task.state
    terminal := task.state.terminal
    reasonCode := .staleClaim }

/-- The checks of a report against the claim it names, in the order of the
source. A claimed record without a claim entry compares as an empty entry. -/
def checkClaim (task : TaskRecord) (result : TaskResult)
    (agentLeaseId : String) : Except Ack Claim :=
  match task.claim with
  | none =>
    if task.state ≠ .claimed ∨ result.claimToken ≠ "" then .error (staleAck task)
    else .error (refused .wrongOwner)
  | some claim =>
    if task.state ≠ .claimed ∨ claim.claimToken ≠ result.claimToken then .error (staleAck task)
    else if claim.agentId ≠ result.agentId then .error (refused .wrongOwner)
    else if result.attempt ≠ task.attempt then .error (refused .staleClaim)
    else if claim.agentLeaseHash ≠ env.hash agentLeaseId then .error (refused .staleClaim)
    else if claim.membershipVersion ≠ result.membershipVersion ∨
        claim.workerFence ≠ result.workerFence then .error (refused .staleClaim)
    else .ok claim

/-- The membership, when there is one, still has this worker as it claimed. -/
def admittedByMembership (store : Store) (result : TaskResult) (agentLeaseId : String) : Bool :=
  if result.generationId = "" then true
  else match store.memberships[result.generationId]? with
    | none => true
    | some membership =>
      match membership.workers[result.agentId]? with
      | none => false
      | some worker => worker.state = .active ∧ worker.leaseHash = env.hash agentLeaseId ∧
          worker.workerFence = result.workerFence

/-- The report names the generation of the task. -/
def namesGeneration (task : TaskRecord) (result : TaskResult) : Bool :=
  result.generationId = task.task.generationId ∧
    result.generationFence = task.task.generationFence ∧
    result.planSha256 = task.task.planSha256

/-- `_verify_output`: a reason to reject the stored object, or none. -/
def verifyOutput (store : Store) (key : String) (result : TaskResult) :
    Option String :=
  match store.objects[key]? with
  | none => some "size_mismatch"
  | some contents =>
    if (contents.length : Int) ≠ result.sizeBytes then some "size_mismatch"
    else if env.contentHash contents ≠ result.contentHash then some "output_verification_failed"
    else if result.s3Etag.toList.length ≠ 32 ∨
        result.s3Etag.toList.any fun character =>
          character ∉ "0123456789abcdefABCDEF".toList then some "invalid_s3_etag"
    else match env.parquetRows contents with
      | none => some "invalid_parquet"
      | some rows => if rows ≠ result.recordCount then some "row_count_mismatch" else none

/-- The completion time of a report, the Manager's own when it has none. -/
def completedAt (now : Int) (result : TaskResult) : Int :=
  if result.completedAtMs = 0 then now else result.completedAtMs

/-- The result entry of an accepted success. -/
def successEntry (now : Int) (result : TaskResult) (claim : Claim) : SavedResult where
  agentId := result.agentId
  attempt := result.attempt
  sizeBytes := some result.sizeBytes
  recordCount := some result.recordCount
  contentHash := some result.contentHash
  s3Etag := some result.s3Etag
  outputKey := some claim.stagingKey
  completedAtMs := completedAt now result
  errorCode := ""

/-- The record of an accepted success. -/
def succeeded (now : Int) (result : TaskResult) (claim : Claim) (task : TaskRecord) :
    TaskRecord :=
  { task with
    state := .succeeded
    result := some (successEntry now result claim)
    lastError := ""
    claim := none
    updatedAtMs := now
    revision := task.revision + 1 }

/-- The delay before the next attempt. -/
def retryDelaySeconds (attempt : Int) : Int :=
  min settings.retryMaxSeconds (settings.retryBackoffSeconds * 2 ^ (max 0 (attempt - 1)).toNat)

/-- The result entry of an accepted failure. -/
def failureEntry (now : Int) (result : TaskResult) : SavedResult where
  agentId := result.agentId
  attempt := result.attempt
  completedAtMs := completedAt now result
  errorCode := if result.errorCode = "" then "agent_error" else result.errorCode

/-- A reported failure leaves another attempt. -/
def retriesLeft (result : TaskResult) (task : TaskRecord) : Bool :=
  result.retryable ∧ task.attempt < task.maxAttempts

/-- The record of an accepted failure. -/
def reportedFailure (now : Int) (result : TaskResult) (task : TaskRecord) : TaskRecord :=
  { task with
    lastError := env.safeError (if result.error = "" then result.errorCode else result.error)
    state := if retriesLeft result task then .retryWait else .failed
    availableAtMs := if retriesLeft result task then
        now + retryDelaySeconds settings task.attempt * 1000
      else task.availableAtMs
    result := some (failureEntry now result)
    claim := none
    updatedAtMs := now
    revision := task.revision + 1 }

/-- The record and result entry an admitted report leads to, or the refusal of
its output. -/
def settleResult (store : Store) (now : Int) (result : TaskResult) (claim : Claim)
    (task : TaskRecord) :
    Except Ack (TaskRecord × SavedResult) :=
  if result.ok then
    if claim.stagingKey = "" ∨ claim.stagingKey ≠ stagingKey env task.task.outputKey
        task.task.generationId result.taskId task.attempt claim.claimToken then
      .error (refused .invalidOutput)
    else match verifyOutput env store claim.stagingKey result with
      | some _ => .error (refused .invalidOutput)
      | none => .ok (succeeded now result claim task, successEntry now result claim)
  else .ok (reportedFailure env settings now result task, failureEntry now result)

/-- The writes of an accepted report. -/
def writeAcceptance (now : Int) (taskId : String) (claim : Claim) (settled : TaskRecord)
    (saved : SavedResult) (state : QueueState) : QueueState :=
  let written := state.perform .acceptResult (.task taskId (some settled))
  let answered := written.perform .acceptResult (.result ⟨taskId, settled.attempt⟩ (some
    { taskId := taskId
      attempt := settled.attempt
      state := settled.state
      result := saved
      agentLeaseHash := claim.agentLeaseHash }))
  refreshRequests now answered

/-- `current_generation`. -/
def currentGeneration (store : Store) :
    Except QueueError (Option GenerationContext) :=
  match store.coordinator with
  | none => .ok none
  | some record =>
    match toContext env.planDigest record with
    | none => .error ⟨.generationError, "generation table-plan digest mismatch"⟩
    | some context => .ok (some context)

/-- The coordinator's generation is not the one the report names. -/
def supersedes (context : GenerationContext) (result : TaskResult) : Bool :=
  result.generationId ≠ context.generationId ∨ result.generationFence ≠ context.fence ∨
    result.planSha256 ≠ context.planSha256

/-- The last part of `accept_result`: verify the output and write the record. -/
def settleClaimed (result : TaskResult) (now : Int) (task : TaskRecord) (claim : Claim)
    (state : QueueState) : Ack × QueueState :=
  match settleResult env settings state.store now result claim task with
  | .error ack => (ack, state)
  | .ok (settled, saved) =>
    ({ ok := true
       state := some settled.state
       terminal := settled.state.terminal
       reasonCode := .accepted },
      writeAcceptance now result.taskId claim settled saved state)

/-- The part of `accept_result` that follows the claim checks. -/
def acceptClaimed (result : TaskResult) (agentLeaseId : String) (now cancelNow : Int)
    (task : TaskRecord) (claim : Claim) (state : QueueState) : Except QueueError Ack × QueueState :=
  if !admittedByMembership env state.store result agentLeaseId then
    (.ok (refused .staleClaim), state)
  else if !namesGeneration task result then (.ok (refused .staleGeneration), state)
  else match currentGeneration env state.store with
    | .error error => (.error error, state)
    | .ok generation =>
      if generation.any fun context => supersedes context result then
        (.ok { ok := false
               state := some .cancelled
               terminal := true
               reasonCode := .staleGeneration },
          (cancelRequest env task.requestId "generation_fenced" cancelNow state).2)
      else
        let settled := settleClaimed env settings result now task claim state
        (.ok settled.1, settled.2)

/-- `accept_result`. `cancelNow` is the clock reading of the nested
`cancel_request`. -/
def acceptResult (result : TaskResult) (agentLeaseId : String) (now cancelNow : Int)
    (state : QueueState) :
    Except QueueError Ack × QueueState :=
  match state.store.results[(⟨result.taskId, result.attempt⟩ : Versioned)]? with
  | some prior => (.ok (priorAck env prior result agentLeaseId), state)
  | none =>
    let expired := (expireClaims now state).2
    match expired.store.tasks[result.taskId]? with
    | none => (.ok { ok := false, terminal := true, reasonCode := .rejected }, expired)
    | some task =>
      if task.state = .succeeded then (.ok (succeededAck task.result result), expired)
      else match checkClaim env task result agentLeaseId with
        | .error ack => (.ok ack, expired)
        | .ok claim =>
          acceptClaimed env settings result agentLeaseId now cancelNow task claim expired

/-! ## Recovery -/

/-- The clock readings of one `recover` call: one for each failed request, three
for each expired task, and the one of the closing `expire_claims`. -/
structure RecoverClock where
  requestUpdated : String → Int
  deadlineCheck : String → Int
  taskAvailable : String → Int
  taskUpdated : String → Int
  expire : Int

/-- Delete listed tasks. -/
def deleteTasks (writer : Writer) (taskIds : List String) (state : QueueState) : QueueState :=
  taskIds.foldl (fun current taskId => current.perform writer (.task taskId none)) state

/-- `recover`: fail a request that lists a task without a record. -/
def markMissing (clock : RecoverClock) (request : RequestRecord) (state : QueueState) :
    QueueState :=
  if ∃ taskId ∈ request.taskIds, state.store.tasks[taskId]? = none then
    state.perform .recover (.request request.requestId (some
      { request with
        state := .failed
        error := "missing_task_record"
        updatedAtMs := clock.requestUpdated request.requestId }))
  else state

/-- One iteration of the first loop in `recover`. -/
def recoverRequest (clock : RecoverClock) (request : RequestRecord) (state : QueueState) :
    QueueState :=
  if request.ready then
    (markMissing clock request state).perform .recover
      (.idempotency request.idempotencyKey (some request.requestId))
  else
    ((deleteTasks .recover request.taskIds state).perform .recover
      (.request request.requestId none)).perform .recover
        (.idempotency request.idempotencyKey none)

/-- `recover`: the record of a task left between the two writes of an expiry. -/
def recovered (clock : RecoverClock) (task : TaskRecord) : TaskRecord :=
  { task with
    state := expiryTarget (clock.deadlineCheck task.taskId) task
    availableAtMs := clock.taskAvailable task.taskId
    updatedAtMs := clock.taskUpdated task.taskId
    revision := task.revision + 1 }

/-- One iteration of the second loop in `recover`. -/
def recoverTask (clock : RecoverClock) (kept : List String) (task : TaskRecord)
    (state : QueueState) : QueueState :=
  if task.requestId ∉ kept then
    (deleteResults .recover task.taskId state).perform .recover (.task task.taskId none)
  else if task.state = .expired then
    state.perform .recover (.task task.taskId (some (recovered clock task)))
  else state

/-- The part of `recover` under the lock. -/
def recoverRecords (clock : RecoverClock) (state : QueueState) : QueueState :=
  let requests := listing state.store.requests
  let settled := requests.foldl (fun current request => recoverRequest clock request current) state
  let kept := (requests.filter RequestRecord.ready).map RequestRecord.requestId
  settled.store.listTasks.foldl (fun current task => recoverTask clock kept task current) settled

/-- The counts `recover` reports. -/
structure RecoverReport where
  removedRequests : Nat
  removedTasks : Nat
  expiredClaims : Nat
  deriving DecidableEq, Repr

/-- `recover`. The closing `expire_claims` takes the lock again. -/
def recover (clock : RecoverClock) (state : QueueState) : RecoverReport × QueueState :=
  let cleaned := recoverRecords clock state
  let expired := expireClaims clock.expire cleaned
  ({ removedRequests := (listing state.store.requests).countP fun request => !request.ready
     removedTasks := state.store.tasks.size - cleaned.store.tasks.size
     expiredClaims := expired.1 },
    expired.2)

/-! ## Pruning -/

/-- `completion_key`. -/
def completionKey (objectKey generationId : String) : String :=
  ".fsp/generations/" ++ generationId ++ "/split-completions/" ++ env.hash objectKey ++ ".json"

/-- The object keys a listing of a key range yields. -/
def Store.objectsUnder (store : Store) (range : String) : List String :=
  (store.objects.toList.map Prod.fst).filter fun key => range.toList.isPrefixOf key.toList

/-- Delete one staged object and its completion record. -/
def deleteStaged (generationId key : String) (state : QueueState) :
    QueueState :=
  (state.perform .pruneStaging (.object key none)).perform .pruneStaging
    (.object (completionKey env key generationId) none)

/-- One iteration of the loop over ranges in `prune_staging`. -/
def pruneRange (generationId : String) (keep : List String) (range : String)
    (state : QueueState) : QueueState :=
  ((state.store.objectsUnder range).filter (· ∉ keep)).foldl
    (fun current key => deleteStaged env generationId key current) state

/-- The distinct staging ranges of a list of outputs. -/
def stagingRanges (generationId : String) (outputKeys : List String) :
    List String :=
  (outputKeys.map fun outputKey => stagingGenerationPrefix env outputKey generationId).dedup

/-- `prune_staging`, with the number of objects found. -/
def pruneStaging (generationId : String) (outputKeys keep : List String)
    (state : QueueState) : Nat × QueueState :=
  (stagingRanges env generationId outputKeys).foldl
    (fun current range =>
      (current.1 + ((current.2.store.objectsUnder range).filter (· ∉ keep)).length,
        pruneRange env generationId keep range current.2)) (0, state)

/-- `prune_terminal`: this request may be removed. -/
def prunable (cutoff : Int) (request : RequestRecord) : Bool :=
  request.state.terminal ∧ request.updatedAtMs ≤ cutoff ∧
    (request.state = .succeeded → request.published)

/-- `prune_terminal`: the staged outputs of this request are removed with it. -/
def discardsStaging (request : RequestRecord) : Bool :=
  !request.published ∧
    (request.state = .failed ∨ request.state = .cancelled ∨ request.state = .expired)

/-- One iteration of the inner loop in `prune_terminal`. -/
def pruneTask (request : RequestRecord) (taskId : String) (state : QueueState) : QueueState :=
  let swept := match state.store.tasks[taskId]? with
    | none => state
    | some task =>
      if discardsStaging request ∧ task.task.generationId ≠ "" then
        (pruneStaging env task.task.generationId [task.task.outputKey] [] state).2
      else state
  (deleteResults .pruneTerminal taskId swept).perform .pruneTerminal (.task taskId none)

/-- One iteration of the outer loop in `prune_terminal`. -/
def pruneRequest (cutoff : Int) (requestId : String) (state : QueueState) :
    QueueState :=
  match state.store.requests[requestId]? with
  | none => state
  | some request =>
    if prunable cutoff request then
      ((request.taskIds.foldl (fun current taskId => pruneTask env request taskId current)
        state).perform .pruneTerminal (.idempotency request.idempotencyKey none)).perform
          .pruneTerminal (.request requestId none)
    else state

/-- `prune_terminal`, with the number of removed requests. -/
def pruneTerminal (retentionSeconds now : Int) (state : QueueState) :
    Nat × QueueState :=
  let cutoff := now - max 0 retentionSeconds * 1000
  ((listing state.store.requests).countP (prunable cutoff),
    state.store.requestIds.foldl
      (fun current requestId => pruneRequest env cutoff requestId current) state)

/-! ## Publication -/

/-- `ArtifactStore.verify`. -/
def Store.verify (store : Store) (split : SplitRef) : Bool :=
  match store.objects[split.objectKey]? with
  | none => false
  | some contents => (contents.length : Int) = split.sizeBytes ∧
      env.contentHash contents = split.contentHash

/-- `store.head` finds an object, of data or of metadata. -/
def Store.exists (store : Store) (key : String) : Bool :=
  store.objects[key]?.isSome || store.metadata[key]?.isSome

/-- The manifest carries the identity of the request. -/
def manifestMatches (requestId : String) (request : RequestRecord) (manifest : SnapshotManifest) :
    Bool :=
  manifest.requestId = requestId ∧ manifest.table = request.table ∧
    manifest.epoch = request.epoch ∧ manifest.generationId = request.generationId ∧
    manifest.generationFence = request.generationFence ∧
    manifest.planSha256 = request.planSha256 ∧ manifest.tenantId = request.tenantId

/-- The coordinator still runs the manifest's generation at this time. -/
def generationActive (context : GenerationContext) (manifest : SnapshotManifest) (now : Int) :
    Bool :=
  context.generationId = manifest.generationId ∧ context.fence = manifest.generationFence ∧
    context.planSha256 = manifest.planSha256 ∧ now < context.expiresAtMs

/-- The two records a publication writes, and the coordinator record that must
still be in place when it writes them. -/
structure Publication where
  guard : Option GenerationRecord
  snapshotKey : Versioned
  manifest : SnapshotManifest
  request : RequestRecord

/-- The checks on a published manifest against the stored outputs and tasks. -/
def checkOutputs (store : Store) (request : RequestRecord)
    (manifest : SnapshotManifest) : Except QueueError String :=
  match manifest.splits.find? fun split => !store.verify env split with
  | some split =>
    .error (conflict ("snapshot output verification failed: " ++ split.objectKey))
  | none =>
    match manifest.metadataKeys.find? fun key => !store.exists key with
    | some key => .error (conflict ("snapshot metadata is missing: " ++ key))
    | none =>
      match request.taskIds.find? fun taskId => store.tasks[taskId]?.isNone with
      | some taskId => .error (conflict ("snapshot task is missing: " ++ taskId))
      | none =>
        let datasets := ((store.tasksOf request).filterMap fun task =>
          datasetOf task.task).dedup
        if 1 < datasets.length then
          .error (conflict "snapshot request spans multiple datasets")
        else if manifest.datasetId ≠ "" ∧ manifest.datasetId ≠ datasets.headD "" then
          .error (conflict "snapshot dataset identity does not match request")
        else if manifest.producedAtMs ≠ 0 ∧ manifest.producedAtMs ≠ request.createdAtMs then
          .error (conflict "snapshot production timestamp does not match request")
        else .ok (datasets.headD "")

/-- `publish_snapshot`: the request, if it may be published under this manifest. -/
def publishableRequest (requestId : String) (manifest : SnapshotManifest) (store : Store) :
    Except QueueError RequestRecord :=
  match store.requests[requestId]? with
  | none => .error ⟨.workQueueError, "unknown request " ++ quoted requestId⟩
  | some request =>
    if request.state ≠ .succeeded then
      .error (conflict ("request " ++ quoted requestId ++ " is not ready for publication"))
    else if !manifestMatches requestId request manifest then
      .error (conflict "snapshot identity does not match request")
    else .ok request

/-- `publish_snapshot`: the coordinator record, if it allows the manifest. -/
def publishableGeneration (manifest : SnapshotManifest) (now : Int)
    (store : Store) : Except QueueError (Option GenerationRecord) :=
  match currentGeneration env store with
  | .error error => .error error
  | .ok generation =>
    if generation.any fun context => !generationActive context manifest now then
      .error (conflict "snapshot generation is no longer active")
    else .ok store.coordinator

/-- The records that `publish_snapshot` writes once all checks have passed. -/
def publicationOf (request : RequestRecord) (manifest : SnapshotManifest) (now : Int)
    (guard : Option GenerationRecord) (datasetId : String) : Publication where
  guard := guard
  snapshotKey := ⟨manifest.table, manifest.epoch⟩
  manifest := { manifest with
    datasetId := datasetId
    producedAtMs := request.createdAtMs }
  request := { request with
    published := true
    snapshotKey := some ⟨manifest.table, manifest.epoch⟩
    updatedAtMs := now }

/-- The part of `publish_snapshot` before its writes, on one state of the store. -/
def preparePublication (requestId : String) (manifest : SnapshotManifest) (now : Int)
    (store : Store) : Except QueueError Publication :=
  match publishableRequest requestId manifest store with
  | .error error => .error error
  | .ok request =>
    match publishableGeneration env manifest now store with
    | .error error => .error error
    | .ok guard =>
      match checkOutputs env store request manifest with
      | .error error => .error error
      | .ok datasetId => .ok (publicationOf request manifest now guard datasetId)

/-- The writes of a publication. -/
def commitPublication (requestId : String) (publication : Publication) (state : QueueState) :
    QueueState :=
  (state.perform .publishSnapshot (.snapshot publication.snapshotKey publication.manifest)).perform
    .publishSnapshot (.request requestId (some publication.request))

/-- `publish_snapshot`, when nothing happens between its reads and its writes. -/
def publishSnapshot (requestId : String) (manifest : SnapshotManifest) (now : Int)
    (state : QueueState) : Except QueueError RequestRecord × QueueState :=
  match preparePublication env requestId manifest now state.store with
  | .error error => (.error error, state)
  | .ok publication => (.ok publication.request, commitPublication requestId publication state)

/-! ## Runs -/

/-- The calls made on a queue. `recoverRecords` is the locked part of a
`recover` whose closing `expire_claims` comes later. The last four are changes
that Agents, the membership reconciler and generation coordinators make. -/
inductive Operation where
  | createRequest (call : CreateCall)
  | claimTask (call : ClaimCall)
  | renewAgentClaims (agentId agentLeaseId : String) (taskIds : List String) (now : Int)
  | releaseClaim (taskId claimToken reason : String) (now : Int)
  | acceptResult (result : TaskResult) (agentLeaseId : String) (now cancelNow : Int)
  | expireClaims (now : Int)
  | reassignFencedClaims (generationId : String) (membership : Membership) (now : Int)
  | fenceClaims (managerOwner : String) (managerFence now : Int)
  | cancelRequest (requestId reason : String) (now : Int)
  | retryTask (taskId : String) (now : Int)
  | recoverRecords (clock : RecoverClock)
  | recover (clock : RecoverClock)
  | setDispatchStatus (taskId reason : String) (now : Int)
  | pruneTerminal (retentionSeconds now : Int)
  | pruneStaging (generationId : String) (outputKeys keep : List String)
  | publishSnapshot (requestId : String) (manifest : SnapshotManifest) (now : Int)
  | changeObject (key : String) (contents : Option Bytes)
  | changeMetadata (key : String) (object : MetadataObject)
  | changeMembership (generationId : String) (membership : Membership)
  | changeCoordinator (record : Option GenerationRecord)

/-- The state after one operation. An exception leaves the state it was raised in. -/
def execute (state : QueueState) :
    Operation → QueueState
  | .createRequest call => (createRequest env settings call state).2
  | .claimTask call => (claimTask env settings call state).2
  | .renewAgentClaims agentId agentLeaseId taskIds now =>
    (renewAgentClaims env agentId agentLeaseId taskIds now state).2
  | .releaseClaim taskId claimToken reason now =>
    (releaseClaim env taskId claimToken reason now state).2
  | .acceptResult result agentLeaseId now cancelNow =>
    (acceptResult env settings result agentLeaseId now cancelNow state).2
  | .expireClaims now => (expireClaims now state).2
  | .reassignFencedClaims generationId membership now =>
    (reassignFencedClaims generationId membership now state).2
  | .fenceClaims managerOwner managerFence now => (fenceClaims managerOwner managerFence now state).2
  | .cancelRequest requestId reason now => (cancelRequest env requestId reason now state).2
  | .retryTask taskId now => (retryTask taskId now state).2
  | .recoverRecords clock => recoverRecords clock state
  | .recover clock => (recover clock state).2
  | .setDispatchStatus taskId reason now => (setDispatchStatus taskId reason now state).2
  | .pruneTerminal retentionSeconds now => (pruneTerminal env retentionSeconds now state).2
  | .pruneStaging generationId outputKeys keep =>
    (pruneStaging env generationId outputKeys keep state).2
  | .publishSnapshot requestId manifest now => (publishSnapshot env requestId manifest now state).2
  | .changeObject key contents => state.perform .outside (.object key contents)
  | .changeMetadata key object => state.perform .outside (.metadata key object)
  | .changeMembership generationId membership =>
    state.perform .outside (.membership generationId membership)
  | .changeCoordinator record => state.perform .outside (.coordinator record)

/-- The state after a list of operations on an empty store. -/
def run (operations : List Operation) : QueueState :=
  operations.foldl (execute env settings) {}

theorem run_append_singleton (operations : List Operation) (operation : Operation) :
    run env settings (operations ++ [operation]) =
      execute env settings (run env settings operations) operation := by
  rw [run, List.foldl_append, List.foldl_cons, List.foldl_nil, ← run]

/-! ## A small workload

Requests for one table with a single split, for the examples of later modules. -/

/-- The only task of a request for the table `t`. -/
def smallTask (epoch : Int) : MaterializeTask where
  table := "t"
  epoch := epoch
  splitIndex := 0
  sourceTable := "s"
  outputKey := "t/0"

/-- A request for the table `t` under a generation. -/
def smallRequest (epoch : Int) (generationId : String) (generationFence : Int) : CreateCall where
  requestedKey := "t"
  table := "t"
  epoch := epoch
  tableFormat := "iceberg"
  generationId := generationId
  generationFence := generationFence
  planSha256 := ""
  tasks := [smallTask epoch]
  deadlineMs := 0
  createdAt := 1000

/-- The claim that an Agent makes on the first task of a request. -/
def firstClaim (call : CreateCall) (task : MaterializeTask) (token : String) :
    ClaimCall where
  taskId := taskIdOf env (env.hash call.identity) task
  agentId := "agent"
  agentLeaseId := "agent-lease"
  managerOwner := "manager-a"
  managerFence := 1
  nowMs := call.createdAt
  claimToken := token

/-- The report of an Agent that wrote these bytes under its first claim. -/
def firstReport (call : CreateCall) (task : MaterializeTask) (token : String)
    (contents : Bytes) : TaskResult where
  agentId := "agent"
  table := call.table
  epoch := call.epoch
  splitIndex := task.splitIndex
  ok := true
  sizeBytes := contents.length
  recordCount := (env.parquetRows contents).getD 0
  contentHash := env.contentHash contents
  taskId := taskIdOf env (env.hash call.identity) task
  requestId := env.hash call.identity
  claimToken := token
  attempt := 1
  generationId := call.generationId
  generationFence := call.generationFence
  planSha256 := call.planSha256
  completedAtMs := call.createdAt
  s3Etag := .ofList (.replicate 32 '0')

/-- Where the first claim of a task puts its output. -/
def firstOutputKey (call : CreateCall) (task : MaterializeTask) (token : String) : String :=
  stagingKey env task.outputKey call.generationId (taskIdOf env (env.hash call.identity) task) 1 token

/-- A request whose task succeeds at its first attempt. -/
def finishing (call : CreateCall) (task : MaterializeTask) (token : String)
    (contents : Bytes) : List Operation :=
  [.createRequest call, .claimTask (firstClaim env call task token),
    .changeObject (firstOutputKey env call task token) (some contents),
    .acceptResult (firstReport env call task token contents) "agent-lease" call.createdAt
      call.createdAt]

/-- The manifest of a request that was finished this way. -/
def finishedManifest (call : CreateCall) (task : MaterializeTask) (token : String)
    (contents : Bytes) : SnapshotManifest where
  table := call.table
  epoch := call.epoch
  tableFormat := call.tableFormat
  splits := [{
    objectKey := firstOutputKey env call task token
    sizeBytes := contents.length
    recordCount := (env.parquetRows contents).getD 0
    contentHash := env.contentHash contents }]
  generationId := call.generationId
  generationFence := call.generationFence
  planSha256 := call.planSha256
  requestId := env.hash call.identity

end ShortcutProxy.WorkQueue
