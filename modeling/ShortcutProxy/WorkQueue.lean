import ShortcutProxy.QueueStore

/-!
# The durable work queue

The operations of `DurableWorkQueue` as state transformers, in the mode without
federation and with every store access succeeding. An operation holds the
queue's lock throughout, so it is one function of the state before it; the order
of its writes is the order of the source and is retained in the journal.

Clock readings are arguments. An operation that reads the clock more than once
takes one argument per reading. A loop over a namespace visits the listing that
the source takes before the loop, including its stale copies.
-/
namespace ShortcutProxy.WorkQueue

open Contract Generation Records

/-- The exception classes of the queue. -/
inductive ErrorKind where
  | valueError
  | workQueueError
  | workQueueConflict
  | generationError
  deriving DecidableEq, Repr

/-- An exception leaving an operation. -/
structure QueueError where
  kind : ErrorKind
  message : String
  deriving DecidableEq, Repr

/-- `WorkQueueConflict(message)`. -/
def conflict (message : String) : QueueError := ⟨.workQueueConflict, message⟩

/-- `repr` of an identifier; identifiers contain no quotes. -/
def quoted (text : String) : String := "'" ++ text ++ "'"

/-- `list_tasks`. A record's identifier is its key, so the key order is the
order by identifier. -/
def Store.listTasks (store : Store) : List TaskRecord := listing store.tasks

/-- The keys that a listing of the request namespace yields. -/
def Store.requestIds (store : Store) : List String := store.requests.toList.map Prod.fst

/-- The result keys listed under one task. -/
def Store.resultKeys (store : Store) (taskId : String) : List Versioned :=
  (store.results.toList.map Prod.fst).filter fun key => key.name = taskId

/-- Delete every result record of a task. -/
def deleteResults (writer : Writer) (taskId : String) (state : QueueState) : QueueState :=
  (state.store.resultKeys taskId).foldl
    (fun current key => current.perform writer (.result key none)) state

/-! ## Staging keys -/

/-- The part of a key before its last slash: `rpartition("/")[0]`. -/
def parentOf (key : String) : String :=
  match key.toList.reverse.dropWhile (· ≠ '/') with
  | [] => ""
  | _ :: reversed => .ofList reversed.reverse

/-- `STAGING_PREFIX`. -/
def stagingRoot : String := ".fsp/staging"

variable (env : Environment) (settings : Settings)

/-- `_staging_generation_prefix`. -/
def stagingGenerationPrefix (outputKey generationId : String) : String :=
  let parent := parentOf outputKey
  (if parent = "" then "" else parent ++ "/") ++ stagingRoot ++ "/" ++ env.hash generationId ++ "/"

/-- `_staging_prefix`. -/
def stagingTaskPrefix (outputKey generationId taskId : String) : String :=
  stagingGenerationPrefix env outputKey generationId ++ taskId ++ "/"

/-- `_staging_key`. -/
def stagingKey (outputKey generationId taskId : String) (attempt : Int)
    (claimToken : String) : String :=
  stagingTaskPrefix env outputKey generationId taskId ++
    toString attempt ++ "-" ++ env.hash claimToken ++ ".parquet"

/-! ## Expiry and request refresh -/

/-- A deadline is set and has passed. -/
def TaskRecord.deadlinePassed (task : TaskRecord) (now : Int) : Bool :=
  task.task.deadlineMs ≠ 0 ∧ task.task.deadlineMs ≤ now

/-- The expiry of the claim, zero when there is none. -/
def TaskRecord.claimExpiry (task : TaskRecord) : Int :=
  (task.claim.map Claim.expiresAtMs).getD 0

/-- States from which a task may be handed out. -/
def TaskState.runnable (state : TaskState) : Bool :=
  state = .queued ∨ state = .retryWait

/-- `expire_claims`: a waiting task whose deadline passed. -/
def deadlineExpired (now : Int) (task : TaskRecord) : TaskRecord :=
  { task with
    state := .failed
    lastError := "deadline_expired"
    updatedAtMs := now
    revision := task.revision + 1 }

/-- `expire_claims`: the first of the two records written for an expired claim. -/
def claimExpired (now : Int) (task : TaskRecord) : TaskRecord :=
  { task with
    availableAtMs := now
    claim := none
    lastError := if task.deadlinePassed now then "deadline_expired" else "claim_expired"
    updatedAtMs := now
    revision := task.revision + 1
    state := .expired }

/-- `target_state` of an expired attempt. -/
def expiryTarget (now : Int) (task : TaskRecord) : TaskState :=
  if task.maxAttempts ≤ task.attempt ∨ task.deadlinePassed now then .failed else .queued

/-- `expire_claims`: the second record written for an expired claim. -/
def expirySettled (target : TaskState) (task : TaskRecord) : TaskRecord :=
  { task with
    state := target
    revision := task.revision + 1 }

/-- A waiting task is due to fail on its deadline. -/
def TaskRecord.waitingPastDeadline (task : TaskRecord) (now : Int) : Bool :=
  TaskState.runnable task.state ∧ task.deadlinePassed now

/-- A claimed task is due to lose its claim. -/
def TaskRecord.claimLapsed (task : TaskRecord) (now : Int) : Bool :=
  task.state = .claimed ∧ (task.claimExpiry ≤ now ∨ task.deadlinePassed now)

/-- One iteration of the loop in `expire_claims`. -/
def expireTask (now : Int) (task : TaskRecord) (state : QueueState) : QueueState :=
  if task.waitingPastDeadline now then
    state.perform .expireClaims (.task task.taskId (some (deadlineExpired now task)))
  else if task.claimLapsed now then
    let expired := claimExpired now task
    (state.perform .expireClaims (.task task.taskId (some expired))).perform .expireClaims
      (.task task.taskId (some (expirySettled (expiryTarget now task) expired)))
  else state

/-- `_refresh_requests`: the record of a task whose request failed. -/
def siblingCancelled (now : Int) (task : TaskRecord) : TaskRecord :=
  { task with
    state := .cancelled
    claim := none
    lastError := "request_failed"
    updatedAtMs := now
    revision := task.revision + 1 }

/-- The tasks of a request that still exist. -/
def Store.tasksOf (store : Store) (request : RequestRecord) : List TaskRecord :=
  request.taskIds.filterMap fun taskId => store.tasks[taskId]?

/-- Cancel the unfinished tasks among copies read earlier. -/
def cancelSiblings (now : Int) (tasks : List TaskRecord) (state : QueueState) : QueueState :=
  (tasks.filter fun task => !task.state.terminal).foldl
    (fun current task => current.perform .refreshRequests
      (.task task.taskId (some (siblingCancelled now task)))) state

/-- The state and error text that its tasks give to a request. -/
def refreshOutcome (request : RequestRecord) (tasks : List TaskRecord) : TaskState × String :=
  if tasks ≠ [] ∧ ∀ task ∈ tasks, task.state = .succeeded then (.succeeded, request.error)
  else match tasks.find? fun task => task.state = .failed with
    | some failed => (.failed, failed.lastError)
    | none =>
      if ∃ task ∈ tasks, task.state = .claimed then (.claimed, request.error)
      else if ∃ task ∈ tasks, task.state = .retryWait then (.retryWait, request.error)
      else (.queued, request.error)

/-- One iteration of the loop in `_refresh_requests`. The unfinished tasks of a
failed request are cancelled before the request is written. -/
def refreshRequest (now : Int) (requestId : String) (state : QueueState) : QueueState :=
  match state.store.requests[requestId]? with
  | none => state
  | some request =>
    if request.published ∨ request.state.terminal then state
    else
      let tasks := state.store.tasksOf request
      let outcome := refreshOutcome request tasks
      let settled := if outcome.1 = .failed then cancelSiblings now tasks state else state
      settled.perform .refreshRequests (.request requestId (some
        { request with
          state := outcome.1
          error := outcome.2
          updatedAtMs := now }))

/-- `_refresh_requests`. -/
def refreshRequests (now : Int) (state : QueueState) : QueueState :=
  state.store.requestIds.foldl (fun current requestId => refreshRequest now requestId current) state

/-- `expire_claims`, with the number of expired tasks. -/
def expireClaims (now : Int) (state : QueueState) : Nat × QueueState :=
  let tasks := state.store.listTasks
  let expired := tasks.foldl (fun current task => expireTask now task current) state
  (tasks.countP fun task => task.waitingPastDeadline now || task.claimLapsed now,
    refreshRequests now expired)

/-! ## Creating and claiming -/

/-- The arguments of one `create_request` call, with its clock reading. -/
structure CreateCall where
  requestedKey : String
  table : String
  epoch : Int
  tableFormat : String
  generationId : String
  generationFence : Int
  planSha256 : String
  tasks : List MaterializeTask
  deadlineMs : Int
  createdAt : Int
  deriving Repr

/-- The distinct non-empty tenants of a request. -/
def CreateCall.tenants (call : CreateCall) : List String :=
  ((call.tasks.map MaterializeTask.tenantId).filter (· ≠ "")).dedup

/-- The dataset a task reads, when both of its parts are known. -/
def datasetOf (task : MaterializeTask) : Option String :=
  if task.connectionId = "" ∨ task.sourceTable = "" then none
  else some (task.connectionId ++ "::" ++ task.sourceTable)

/-- The distinct datasets of a request. -/
def CreateCall.datasets (call : CreateCall) : List String :=
  (call.tasks.filterMap datasetOf).dedup

/-- `identity`, the text whose digest names the request. -/
def CreateCall.identity (call : CreateCall) : String :=
  let tenant := call.tenants.headD ""
  "|".intercalate ([call.table, toString call.epoch, call.generationId,
    toString call.generationFence, call.planSha256] ++ if tenant = "" then [] else [tenant])

/-- The identifier of one task of a request. -/
def taskIdOf (requestId : String) (task : MaterializeTask) : String :=
  env.hash (requestId ++ "|" ++ toString task.splitIndex ++ "|" ++ task.outputKey)

/-- The first record of a task. -/
def createdTask (call : CreateCall) (task : MaterializeTask) : TaskRecord :=
  let requestId := env.hash call.identity
  let taskId := taskIdOf env requestId task
  { taskId := taskId
    requestId := requestId
    state := .queued
    attempt := 0
    maxAttempts := settings.maxAttempts
    availableAtMs := call.createdAt
    claim := none
    task := { task with
      taskId := taskId
      requestId := requestId
      generationId := call.generationId
      generationFence := call.generationFence
      planSha256 := call.planSha256
      deadlineMs := call.deadlineMs }
    result := none
    lastError := ""
    createdAtMs := call.createdAt
    updatedAtMs := call.createdAt
    revision := 1 }

/-- The first record of a request, before its tasks are written. -/
def createdRequest (call : CreateCall) : RequestRecord where
  requestId := env.hash call.identity
  idempotencyKey := env.hash call.identity
  requestedKey := call.requestedKey
  table := call.table
  epoch := call.epoch
  tableFormat := call.tableFormat
  datasetId := call.datasets.headD ""
  tenantId := call.tenants.headD ""
  generationId := call.generationId
  generationFence := call.generationFence
  planSha256 := call.planSha256
  deadlineMs := call.deadlineMs
  taskIds := call.tasks.map (taskIdOf env (env.hash call.identity))
  state := .queued
  published := false
  snapshotKey := none
  error := ""
  createdAtMs := call.createdAt
  updatedAtMs := call.createdAt
  ready := false

/-- The writes of a `create_request` call that finds no earlier request. -/
def writeRequest (call : CreateCall) (state : QueueState) : QueueState :=
  let request := createdRequest env call
  let announced := state.perform .createRequest (.request request.requestId (some request))
  let filled := (call.tasks.map (createdTask env settings call)).foldl
    (fun current task => current.perform .createRequest (.task task.taskId (some task))) announced
  (filled.perform .createRequest
    (.request request.requestId (some { request with ready := true }))).perform .createRequest
      (.idempotency request.requestId (some request.requestId))

/-- `create_request`. -/
def createRequest (call : CreateCall)
    (state : QueueState) : Except QueueError RequestRecord × QueueState :=
  if 1 < call.tenants.length ∨ (call.tenants ≠ [] ∧ ∃ task ∈ call.tasks, task.tenantId = "") then
    (.error (conflict "materialization request spans multiple tenants"), state)
  else match state.store.idempotency[env.hash call.identity]? with
    | some requestId =>
      match state.store.requests[requestId]? with
      | some request => (.ok request, state)
      | none =>
        (.error ⟨.workQueueError, "idempotency record points to a missing request"⟩, state)
    | none =>
      if 1 < call.datasets.length then
        (.error (conflict "materialization request spans multiple datasets"), state)
      else
        (.ok { createdRequest env call with ready := true }, writeRequest env settings call state)

/-- `claim_task`: the record that returns a task from its retry delay. -/
def requeued (now : Int) (task : TaskRecord) : TaskRecord :=
  { task with
    state := .queued
    updatedAtMs := now
    revision := task.revision + 1 }

/-- The expiry of a claim taken or renewed now, capped by the deadline. -/
def leaseExpiry (now duration deadline : Int) : Int :=
  min (now + duration * 1000) (if deadline = 0 then now + duration * 1000 else deadline)

/-- `claim_task`: the claim entry for the next attempt. -/
def newClaim (call : ClaimCall) (duration : Int) (task : TaskRecord) :
    Claim where
  agentId := call.agentId
  agentLeaseHash := env.hash call.agentLeaseId
  claimToken := call.claimToken
  claimedAtMs := call.nowMs
  expiresAtMs := leaseExpiry call.nowMs duration task.task.deadlineMs
  managerOwner := call.managerOwner
  managerFence := call.managerFence
  membershipVersion := call.membershipVersion
  workerFence := call.workerFence
  stagingKey := stagingKey env task.task.outputKey task.task.generationId call.taskId
    (task.attempt + 1) call.claimToken
  leaseSeconds := duration

/-- `claim_task`: the claimed record. -/
def claimed (env : Environment) (call : ClaimCall) (duration : Int) (task : TaskRecord) :
    TaskRecord :=
  { task with
    state := .claimed
    dispatchStatus := none
    attempt := task.attempt + 1
    claim := some (newClaim env call duration task)
    updatedAtMs := call.nowMs
    revision := task.revision + 1 }

/-- The work sent to the Agent that took a claim. -/
def claimedWork (call : ClaimCall) (task : TaskRecord) (claim : Claim) : MaterializeTask :=
  { task.task.fromDict with
    outputKey := claim.stagingKey
    claimToken := claim.claimToken
    attempt := task.attempt + 1
    claimExpiresAtMs := claim.expiresAtMs
    membershipVersion := call.membershipVersion
    workerFence := call.workerFence }

/-- `claim_task`. -/
def claimTask (env : Environment) (settings : Settings) (call : ClaimCall) (state : QueueState) :
    Except QueueError MaterializeTask × QueueState :=
  let duration := call.leaseSeconds.getD settings.taskLeaseSeconds
  if duration < 1 then
    (.error ⟨.valueError, "claim lease_seconds must be a positive integer"⟩, state)
  else match state.store.tasks[call.taskId]? with
    | none => (.error ⟨.workQueueError, "unknown task " ++ quoted call.taskId⟩, state)
    | some task =>
      if !TaskState.runnable task.state then
        (.error (conflict ("task " ++ quoted call.taskId ++ " cannot be claimed from " ++
          task.state.text)), state)
      else if call.nowMs < task.availableAtMs then
        (.error (conflict ("task " ++ quoted call.taskId ++ " is not available yet")), state)
      else
        let waiting := if task.state = .retryWait then requeued call.nowMs task else task
        let ready := if task.state = .retryWait then
            state.perform (.claimTask call) (.task call.taskId (some waiting))
          else state
        (.ok (claimedWork call waiting (newClaim env call duration waiting)),
          ready.perform (.claimTask call)
            (.task call.taskId (some (claimed env call duration waiting))))

/-! ## Renewing and releasing -/

/-- `renew_agent_claims`: this claim belongs to the agent lease and is live. -/
def renewable (agentId agentLeaseId : String) (now : Int) (task : TaskRecord) : Bool :=
  task.state = .claimed && match task.claim with
    | none => false
    | some claim => decide (now < claim.expiresAtMs ∧ claim.agentId = agentId ∧
        claim.agentLeaseHash = env.hash agentLeaseId)

/-- `renew_agent_claims`: the renewed record. -/
def renewed (now : Int) (task : TaskRecord) : TaskRecord :=
  { task with
    claim := task.claim.map fun claim =>
      { claim with expiresAtMs := leaseExpiry now claim.leaseSeconds task.task.deadlineMs }
    updatedAtMs := now
    revision := task.revision + 1 }

/-- One iteration of the loop in `renew_agent_claims`. -/
def renewTask (agentId agentLeaseId : String) (now : Int) (taskId : String)
    (state : QueueState) : QueueState :=
  match state.store.tasks[taskId]? with
  | none => state
  | some task =>
    if renewable env agentId agentLeaseId now task then
      state.perform .renewAgentClaims (.task taskId (some (renewed now task)))
    else state

/-- `renew_agent_claims`, with the number of renewed claims. -/
def renewAgentClaims (agentId agentLeaseId : String) (taskIds : List String) (now : Int)
    (state : QueueState) : Nat × QueueState :=
  let active := taskIds.dedup
  ((active.filterMap fun taskId => state.store.tasks[taskId]?).countP
      (renewable env agentId agentLeaseId now),
    active.foldl (fun current taskId => renewTask env agentId agentLeaseId now taskId current) state)

/-- A claim returned to the retry queue with a reason. -/
def returned (now : Int) (reason : String) (task : TaskRecord) : TaskRecord :=
  { task with
    state := .retryWait
    claim := none
    availableAtMs := now
    lastError := reason
    updatedAtMs := now
    revision := task.revision + 1 }

/-- `release_claim`. -/
def releaseClaim (env : Environment) (taskId claimToken reason : String) (now : Int)
    (state : QueueState) : Bool × QueueState :=
  match state.store.tasks[taskId]? with
  | none => (false, state)
  | some task =>
    if task.state ≠ .claimed then (false, state)
    else if (task.claim.map Claim.claimToken).getD "" ≠ claimToken then (false, state)
    else
      let written := state.perform .releaseClaim
        (.task taskId (some (returned now (env.safeError reason) task)))
      (true, refreshRequests now written)

/-- The claim is held by an active worker under its current lease and fence. -/
def heldByMember (membership : Membership) (task : TaskRecord) : Bool :=
  match membership.workers[(task.claim.map Claim.agentId).getD ""]? with
  | none => false
  | some worker => worker.state = .active ∧
      worker.leaseHash = (task.claim.map Claim.agentLeaseHash).getD "" ∧
      worker.workerFence = (task.claim.map Claim.workerFence).getD (-2)

/-- `reassign_fenced_claims`: the claim must be taken away. -/
def fencedOut (generationId : String) (membership : Membership) (task : TaskRecord) : Bool :=
  task.state = .claimed ∧ task.task.generationId = generationId ∧ !heldByMember membership task

/-- `reassign_fenced_claims`: the reassigned record. -/
def reassigned (now : Int) (task : TaskRecord) : TaskRecord :=
  { returned now "worker_membership_fenced" task with
    reassignmentCount := task.reassignmentCount + 1 }

/-- One iteration of the loop in `reassign_fenced_claims`. -/
def reassignTask (generationId : String) (membership : Membership) (now : Int) (task : TaskRecord)
    (state : QueueState) : QueueState :=
  if fencedOut generationId membership task then
    state.perform .reassignFencedClaims (.task task.taskId (some (reassigned now task)))
  else state

/-- `reassign_fenced_claims`, with the number of reassigned claims. -/
def reassignFencedClaims (generationId : String) (membership : Membership) (now : Int)
    (state : QueueState) : Nat × QueueState :=
  let tasks := state.store.listTasks
  let count := tasks.countP (fencedOut generationId membership)
  let moved := tasks.foldl
    (fun current task => reassignTask generationId membership now task current) state
  (count, if count = 0 then moved else
    moved.perform .reassignFencedClaims (.membership generationId
      { membership with
        reassignmentCount := membership.reassignmentCount + count
        updatedAtMs := now
        lastChangeReason := "unfinished_work_reassigned" }))

/-- `fence_claims`: the claim was made under another leadership term. -/
def otherTerm (managerOwner : String) (managerFence : Int) (task : TaskRecord) : Bool :=
  task.state = .claimed && match task.claim with
    | none => true
    | some claim => !decide (claim.managerOwner = managerOwner ∧ claim.managerFence = managerFence)

/-- One iteration of the loop in `fence_claims`. -/
def fenceTask (managerOwner : String) (managerFence now : Int) (task : TaskRecord)
    (state : QueueState) : QueueState :=
  if otherTerm managerOwner managerFence task then
    state.perform .fenceClaims (.task task.taskId (some (returned now "manager_fenced" task)))
  else state

/-- `fence_claims`, with the number of fenced claims. -/
def fenceClaims (managerOwner : String) (managerFence now : Int) (state : QueueState) :
    Nat × QueueState :=
  let tasks := state.store.listTasks
  let count := tasks.countP (otherTerm managerOwner managerFence)
  let moved := tasks.foldl
    (fun current task => fenceTask managerOwner managerFence now task current) state
  (count, if count = 0 then moved else refreshRequests now moved)

/-- `set_dispatch_status`: the record with its scheduler outcome. -/
def dispatched (now : Int) (reason : String) (task : TaskRecord) : TaskRecord :=
  { task with
    dispatchStatus := if reason = "" then none else some reason
    updatedAtMs := now
    revision := task.revision + 1 }

/-- `set_dispatch_status`. -/
def setDispatchStatus (taskId reason : String) (now : Int) (state : QueueState) :
    Bool × QueueState :=
  match state.store.tasks[taskId]? with
  | none => (false, state)
  | some task =>
    if !TaskState.runnable task.state ∨ task.dispatchStatus.getD "" = reason then (false, state)
    else (true, state.perform .setDispatchStatus (.task taskId (some (dispatched now reason task))))

end ShortcutProxy.WorkQueue
