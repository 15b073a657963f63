import ShortcutProxy.TaskAttempts

/-!
# Requests that Agents can complete

An open request without failed tasks stays open through every refresh, and an expiry
leaves its tasks alone until they are due. So its waiting tasks can be completed one by
one, in the order in which they become available: an Agent claims the task, uploads its
output and reports it. When the last task has succeeded, so has the request.
-/
namespace ShortcutProxy.WorkQueue

open Contract Generation Records TableMetadata List TaskRecord TaskState

/-! ## Open requests without failed tasks -/

variable (env : Environment)

/-- The state is reached by completed calls. -/
def Reachable (settings : Settings) (state : QueueState) : Prop :=
  ∃ operations, state = run env settings operations

variable {state : QueueState} {store : Store} {requestId taskId : String} {request : RequestRecord}

theorem Reachable.execute {env : Environment} {settings : Settings}
    (reachable : Reachable env settings state) (operation : Operation) :
    Reachable env settings (execute env settings state operation) := by
  obtain ⟨operations, rfl⟩ := reachable
  exact ⟨operations ++ [operation], (run_append_singleton env settings operations operation).symm⟩

theorem Reachable.intact {env : Environment} {settings : Settings}
    (reachable : Reachable env settings state) : Intact state.store := by
  obtain ⟨operations, rfl⟩ := reachable
  exact run_intact env settings operations

theorem Reachable.owned {env : Environment} {settings : Settings}
    (reachable : Reachable env settings state) : Owned env state.store := by
  obtain ⟨operations, rfl⟩ := reachable
  exact run_owned operations

variable {task : TaskRecord}

/-- The tasks of a request are its own. -/
theorem Intact.own (intact : Intact store) (stored : store.requests[requestId]? = some request)
    (listed : taskId ∈ request.taskIds) (found : store.tasks[taskId]? = some task) :
    task.requestId = requestId := by
  obtain ⟨known, present, own, _⟩ := intact.listed requestId request stored taskId listed
  cases found.symm.trans present
  exact own

/-- An open request none of whose tasks has failed. -/
structure Pending (requestId : String) (request : RequestRecord) (state : QueueState) : Prop where
  stored : state.store.requests[requestId]? = some request
  unpublished : request.published = false
  unfinished : request.state.terminal = false
  unfailed : ∀ taskId ∈ request.taskIds, ∀ task, state.store.tasks[taskId]? = some task →
    task.state ≠ .failed

section Outcome

variable {request : RequestRecord} {tasks : List TaskRecord}

/-- A request that its tasks fail has a failed task. -/
theorem refreshOutcome_failed (failed : (refreshOutcome request tasks).1 = .failed) :
    ∃ task ∈ tasks, task.state = .failed := by
  unfold refreshOutcome at failed
  split at failed
  · cases failed
  · split at failed
    · next task found =>
      exact ⟨task, mem_of_find?_eq_some found, by simpa using find?_some found⟩
    · split at failed
      · cases failed
      · split at failed <;> cases failed

/-- A request with an unfinished task and no failed one stays open. -/
theorem refreshOutcome_open (unfailed : ∀ task ∈ tasks, task.state ≠ .failed)
    (waiting : ∃ task ∈ tasks, task.state ≠ .succeeded) :
    (refreshOutcome request tasks).1.terminal = false := by
  obtain ⟨task, member, unfinished⟩ := waiting
  have some_ : ¬(tasks ≠ [] ∧ ∀ task ∈ tasks, task.state = .succeeded) :=
    fun all => unfinished (all.2 task member)
  have none_ : tasks.find? (fun task => task.state = .failed) = none := by
    rw [find?_eq_none]
    intro other inside failed
    exact unfailed other inside (by simpa using failed)
  simp only [refreshOutcome, if_neg some_, none_]
  split
  · rfl
  · split <;> rfl

end Outcome

section Refresh

variable {env : Environment} {state other : QueueState} {requestId taskId : String}
  {request : RequestRecord}

/-- Refreshing one request spares every other one and the tasks of the other one. -/
theorem refreshRequest_spares (now : Int) (intact : Intact state.store)
    (owned : Owned env state.store) {name : String} (apart : name ≠ requestId)
    (stored : state.store.requests[requestId]? = some request) :
    (refreshRequest now name state).store.requests[requestId]? = some request ∧
      ∀ taskId ∈ request.taskIds,
        (refreshRequest now name state).store.tasks[taskId]? = state.store.tasks[taskId]? := by
  rcases refreshRequest_cases now name state with
    same | ⟨visited, settled, present, _, _, origin, requests, shape⟩
  · rw [same]
    exact ⟨stored, fun _ _ => rfl⟩
  · rw [shape]
    refine ⟨(getElem?_assign_of_ne _ _ apart).trans (requests ▸ stored), fun taskId listed => ?_⟩
    rcases origin with ⟨rfl, _⟩ | ⟨rfl, _⟩
    · rfl
    · refine view_foldl_mem (fun store => store.tasks[taskId]?) _ _ (fun sibling inside _ =>
        getElem?_assign_of_ne _ _ fun same => ?_) state
      obtain ⟨siblingId, siblingListed, found⟩ :=
        mem_filterMap.mp (mem_filter.mp inside).1
      have own := intact.own present siblingListed found
      obtain rfl : siblingId = taskId := (owned.taskKey siblingId sibling found).symm.trans same
      exact apart (own.symm.trans (intact.own stored listed found))

/-- The loop of `expire_claims` leaves a task alone that is not due. -/
theorem expireTasks_kept (now : Int) (owned : Owned env state.store)
    (stored : state.store.tasks[taskId]? = some task)
    (timely : task.waitingPastDeadline now = false) (held : task.claimLapsed now = false) :
    (state.store.listTasks.foldl (fun current other => expireTask now other current)
      state).store.tasks[taskId]? = some task := by
  refine owned.walkTasks (expireTask now) (fun first second =>
      first.store.tasks[taskId]? = some task → second.store.tasks[taskId]? = some task)
    (fun before => before) (fun left right before => right (left before)) ?_
    (expireTask_kept now) stored
  intro current other present before
  by_cases same : other.taskId = taskId
  · rw [same, before] at present
    cases present
    rw [expireTask, if_neg (by simp [timely]), if_neg (by simp [held])]
    exact before
  · rw [expireTask_kept now current other taskId same]
    exact before

variable (pending : Pending requestId request state)
include pending

theorem Pending.unfailed_tasksOf :
    ∀ task ∈ state.store.tasksOf request, task.state ≠ .failed := by
  intro task member
  obtain ⟨taskId, listed, found⟩ := mem_filterMap.mp member
  exact pending.unfailed taskId listed task found

/-- Nothing else of the store matters. -/
theorem Pending.of_eq
    (requests : other.store.requests[requestId]? = state.store.requests[requestId]?)
    (tasks : ∀ taskId ∈ request.taskIds, other.store.tasks[taskId]? = state.store.tasks[taskId]?) :
    Pending requestId request other where
  stored := requests.trans pending.stored
  unpublished := pending.unpublished
  unfinished := pending.unfinished
  unfailed taskId listed task found :=
    pending.unfailed taskId listed task ((tasks taskId listed).symm.trans found)

/-- A write of a task that has not failed. -/
theorem Pending.put {new : TaskRecord}
    (requests : other.store.requests = state.store.requests)
    (tasks : other.store.tasks = assign state.store.tasks taskId (some new))
    (unfailed : new.state ≠ .failed) : Pending requestId request other := by
  refine ⟨requests ▸ pending.stored, pending.unpublished, pending.unfinished, ?_⟩
  intro name listed task found
  rw [tasks, getElem?_assign] at found
  split at found
  · cases found
    exact unfailed
  · exact pending.unfailed name listed task found

/-- A refresh gives an open request without failed tasks the state of its tasks. -/
theorem Pending.refreshRequest (now : Int) :
    refreshRequest now requestId state = state.perform .refreshRequests (.request requestId (some
      { request with
        state := (refreshOutcome request (state.store.tasksOf request)).1
        error := (refreshOutcome request (state.store.tasksOf request)).2
        updatedAtMs := now })) := by
  have open_ : ¬(request.published = true ∨ request.state.terminal = true) := by
    simp [pending.unpublished, pending.unfinished]
  have unfailed : (refreshOutcome request (state.store.tasksOf request)).1 ≠ .failed := by
    intro failed
    obtain ⟨task, member, taskFailed⟩ := refreshOutcome_failed failed
    exact pending.unfailed_tasksOf task member taskFailed
  simp only [WorkQueue.refreshRequest, pending.stored, if_neg open_, if_neg unfailed]

variable (settings : Settings) (now : Int) (intact : Intact state.store)
  (owned : Owned env state.store)
include settings intact owned

/-- What refreshing some requests leaves of an open request without failed tasks: its tasks
are as they were, and it has their state once it was visited. -/
theorem Pending.refreshLoop (visits : List String) (after : QueueState)
    (reached : visits.foldl (fun current name => WorkQueue.refreshRequest now name current) state =
      after) :
    Intact after.store ∧ Owned env after.store ∧
      (∀ taskId ∈ request.taskIds, after.store.tasks[taskId]? = state.store.tasks[taskId]?) ∧
      ∃ later, after.store.requests[requestId]? = some later ∧ later.taskIds = request.taskIds ∧
        later.published = false ∧ (requestId ∈ visits ∨ later.state.terminal = true →
          later.state = (refreshOutcome later (state.store.tasksOf request)).1) := by
  induction visits using List.reverseRecOn generalizing after with
  | nil =>
    subst reached
    exact ⟨intact, owned, fun _ _ => rfl, request, pending.stored, rfl, pending.unpublished,
      by simp [pending.unfinished]⟩
  | append_singleton visits name ih =>
    rw [foldl_append] at reached
    obtain ⟨intact, owned, tasks, later, stored, sameIds, unpublished, settled⟩ := ih _ rfl
    generalize visits.foldl (fun current name => WorkQueue.refreshRequest now name current) state =
      middle at reached intact owned tasks stored
    subst reached
    refine ⟨intact.refreshRequest settings owned now name,
      owned.refreshRequest now name, ?_⟩
    by_cases same : name = requestId
    · subst same
      cases closed : later.state.terminal with
      | true =>
        have unchanged : WorkQueue.refreshRequest now name middle = middle := by
          simp [WorkQueue.refreshRequest, stored, closed]
        simp only [foldl_cons, foldl_nil, unchanged]
        exact ⟨tasks, later, stored, sameIds, unpublished, fun _ => settled (.inr closed)⟩
      | false =>
        have open_ : Pending name later middle := by
          refine ⟨stored, unpublished, closed, ?_⟩
          rw [sameIds]
          intro taskId listed task found
          exact pending.unfailed taskId listed task ((tasks taskId listed).symm.trans found)
        have read : middle.store.tasksOf later = state.store.tasksOf request := by
          rw [Store.tasksOf, sameIds]
          exact filterMap_congr tasks
        simp only [foldl_cons, foldl_nil, open_.refreshRequest, read]
        refine ⟨tasks, _, getElem?_assign_self _ _ _, sameIds, unpublished, fun _ => ?_⟩
        -- The state depends on the tasks only.
        simp only [refreshOutcome]
        split
        · rfl
        · split
          · rfl
          · split
            · rfl
            · split <;> rfl
    · obtain ⟨kept, keptTasks⟩ := refreshRequest_spares now intact owned same stored
      refine ⟨fun taskId listed => (keptTasks taskId (sameIds ▸ listed)).trans (tasks taskId listed),
        later, kept, sameIds, unpublished, fun reason => settled (reason.imp_left fun visited => ?_)⟩
      exact (mem_append.mp visited).resolve_right fun last =>
        same (mem_singleton.mp last).symm

/-- A refresh of all requests gives an open request without failed tasks the state of its
tasks, and leaves the tasks alone. -/
theorem Pending.refreshRequests :
    (∀ taskId ∈ request.taskIds,
      (refreshRequests now state).store.tasks[taskId]? = state.store.tasks[taskId]?) ∧
    ∃ later, (refreshRequests now state).store.requests[requestId]? = some later ∧
      later.taskIds = request.taskIds ∧ later.published = false ∧
      later.state = (refreshOutcome later ((refreshRequests now state).store.tasksOf later)).1 := by
  have member : requestId ∈ state.store.requestIds := by
    refine mem_map.mpr ⟨(requestId, request), ?_, rfl⟩
    exact Std.ExtTreeMap.mem_toList_iff_getElem?_eq_some.mpr pending.stored
  obtain ⟨_, _, tasks, later, stored, sameIds, unpublished, settled⟩ :=
    pending.refreshLoop settings now intact owned state.store.requestIds _ rfl
  refine ⟨tasks, later, stored, sameIds, unpublished, ?_⟩
  have read : (WorkQueue.refreshRequests now state).store.tasksOf later =
      state.store.tasksOf request := by
    rw [Store.tasksOf, sameIds]
    exact filterMap_congr tasks
  rw [read]
  exact settled (.inl member)

/-- An expiry at which no task of an open request is due only refreshes the request. -/
theorem Pending.expireClaims
    (calm : ∀ taskId ∈ request.taskIds, ∀ task, state.store.tasks[taskId]? = some task →
      task.waitingPastDeadline now = false ∧ task.claimLapsed now = false)
    (waiting : ∃ taskId ∈ request.taskIds, ∃ task, state.store.tasks[taskId]? = some task ∧
      task.state ≠ .succeeded) :
    (∀ taskId ∈ request.taskIds,
      (expireClaims now state).2.store.tasks[taskId]? = state.store.tasks[taskId]?) ∧
    ∃ later, later.taskIds = request.taskIds ∧
      Pending requestId later (expireClaims now state).2 := by
  have visits : Moves env settings {} [.expireClaims] state (state.store.listTasks.foldl
      (fun current task => expireTask now task current) state) :=
    expireTasks_moves (by simp)
  have requests := visits.within.requests_eq (by simp)
  have tasks : ∀ taskId ∈ request.taskIds, (state.store.listTasks.foldl
      (fun current task => expireTask now task current) state).store.tasks[taskId]? =
        state.store.tasks[taskId]? := by
    intro taskId listed
    obtain ⟨task, found, _⟩ := intact.listed requestId request pending.stored taskId listed
    obtain ⟨timely, held⟩ := calm taskId listed task found
    rw [found]
    exact expireTasks_kept now owned found timely held
  have intact₁ := intact.of_advancing owned visits
    (by simp)
  have owned₁ := visits.owned owned
  rw [WorkQueue.expireClaims]
  generalize state.store.listTasks.foldl (fun current task => expireTask now task current) state =
    visited at requests tasks intact₁ owned₁ ⊢
  have open_ : Pending requestId request visited := pending.of_eq (by rw [requests]) tasks
  obtain ⟨sameTasks, later, stored, sameIds, unpublished, outcome⟩ :=
    open_.refreshRequests settings now intact₁ owned₁
  have same : ∀ taskId ∈ request.taskIds, (WorkQueue.refreshRequests now visited).store.tasks[taskId]? =
      state.store.tasks[taskId]? :=
    fun taskId listed => (sameTasks taskId listed).trans (tasks taskId listed)
  have unfailed : ∀ taskId ∈ later.taskIds, ∀ task,
      (WorkQueue.refreshRequests now visited).store.tasks[taskId]? = some task →
        task.state ≠ .failed := by
    rw [sameIds]
    exact fun taskId listed task found =>
      pending.unfailed taskId listed task ((same taskId listed).symm.trans found)
  refine ⟨same, later, sameIds, stored, unpublished, ?_, unfailed⟩
  obtain ⟨taskId, listed, task, found, undone⟩ := waiting
  rw [outcome]
  refine refreshOutcome_open (fun other member => ?_)
    ⟨task, mem_filterMap.mpr ⟨taskId, sameIds ▸ listed, (same taskId listed).trans found⟩, undone⟩
  obtain ⟨otherId, otherListed, present⟩ := mem_filterMap.mp member
  exact unfailed otherId otherListed other present

end Refresh

/-! ## Completing one task -/

/-- Some Agent can complete the task now: the coordinator runs the generation of the task
or none, and the membership of the generation, if there is one, has an active worker. -/
def Served (store : Store) (task : TaskRecord) : Prop :=
  (∃ generation, currentGeneration env store = .ok generation ∧
    ∀ context, generation = some context → task.task.generationId = context.generationId ∧
      task.task.generationFence = context.fence ∧ task.task.planSha256 = context.planSha256) ∧
  (task.task.generationId = "" ∨ ∀ membership,
    store.memberships[task.task.generationId]? = some membership →
      ∃ (agentId : String) (worker : Worker) (agentLeaseId : String),
        membership.workers[agentId]? = some worker ∧ worker.state = .active ∧
          worker.leaseHash = env.hash agentLeaseId)

/-- The claim of an Agent on a task. -/
def workClaim (agentId agentLeaseId : String) (workerFence now : Int) (taskId : String) :
    ClaimCall where
  taskId := taskId
  agentId := agentId
  agentLeaseId := agentLeaseId
  managerOwner := "manager"
  managerFence := 1
  workerFence := workerFence
  nowMs := now
  claimToken := "token"

/-- The report of an Agent on the output that it uploaded. -/
def workReport (agentId : String) (workerFence : Int) (taskId : String) (task : TaskRecord)
    (contents : Bytes) (rows : Int) : TaskResult where
  agentId := agentId
  table := task.task.table
  epoch := task.task.epoch
  splitIndex := task.task.splitIndex
  ok := true
  sizeBytes := contents.length
  recordCount := rows
  contentHash := env.contentHash contents
  taskId := taskId
  requestId := task.requestId
  claimToken := "token"
  attempt := task.attempt + 1
  generationId := task.task.generationId
  generationFence := task.task.generationFence
  planSha256 := task.task.planSha256
  workerFence := workerFence
  s3Etag := .ofList (.replicate 32 '0')

section Acceptance

variable {env : Environment} {settings : Settings} {state : QueueState}

/-- A claim leaves the claimed record, and nothing else has changed. -/
theorem claimTask_claims (call : ClaimCall) (defaults : call.leaseSeconds = none)
    {task : TaskRecord}
    (stored : state.store.tasks[call.taskId]? = some task)
    (waits : runnable task.state = true) (available : task.availableAtMs ≤ call.nowMs) :
    ∃ waiting, (waiting = task ∨ waiting = requeued call.nowMs task) ∧
      (claimTask env settings call state).2.store = { state.store with
        tasks := (claimTask env settings call state).2.store.tasks } ∧
      (claimTask env settings call state).2.store.tasks[call.taskId]? =
        some (claimed env call settings.taskLeaseSeconds waiting) ∧
      ∀ other, other ≠ call.taskId →
        (claimTask env settings call state).2.store.tasks[other]? = state.store.tasks[other]? := by
  have lease : ¬settings.taskLeaseSeconds < 1 := not_lt.mpr settings.lease_positive
  simp only [claimTask, defaults, Option.getD_none, if_neg lease, stored, waits, Bool.not_true,
    Bool.false_eq_true, if_false, if_neg (not_lt.mpr available)]
  by_cases retrying : task.state = .retryWait
  · simp only [if_pos retrying]
    refine ⟨_, .inr rfl, rfl, getElem?_assign_self _ _ _, ?_⟩
    intro other apart
    exact (getElem?_assign_of_ne _ _ (.symm apart)).trans
      (getElem?_assign_of_ne _ _ (.symm apart))
  · simp only [if_neg retrying]
    refine ⟨_, .inl rfl, rfl, getElem?_assign_self _ _ _, ?_⟩
    intro other apart
    exact getElem?_assign_of_ne _ _ (.symm apart)

/-- A report that passes every check settles its task. -/
theorem acceptResult_settles {result : TaskResult} {agentLeaseId : String} {now cancelNow : Int}
    {task settled : TaskRecord} {claim : Claim} {saved : SavedResult}
    {generation : Option GenerationContext}
    (unanswered : state.store.results[(⟨result.taskId, result.attempt⟩ : Versioned)]? = none)
    (stored : (expireClaims now state).2.store.tasks[result.taskId]? = some task)
    (held : task.state = .claimed) (checked : checkClaim env task result agentLeaseId = .ok claim)
    (admitted : admittedByMembership env (expireClaims now state).2.store result agentLeaseId = true)
    (named : namesGeneration task result = true)
    (current : currentGeneration env (expireClaims now state).2.store = .ok generation)
    (running : (generation.any fun context => supersedes context result) = false)
    (settles : settleResult env settings (expireClaims now state).2.store now result claim task =
      .ok (settled, saved)) :
    (acceptResult env settings result agentLeaseId now cancelNow state).2 =
      writeAcceptance now result.taskId claim settled saved (expireClaims now state).2 := by
  have open_ : task.state ≠ .succeeded := by
    rw [held]
    decide
  simp only [acceptResult, unanswered, stored, if_neg open_, checked, acceptClaimed, admitted,
    named, current, running, settleClaimed, settles, Bool.not_true, Bool.false_eq_true, if_false]

end Acceptance

/-! ## Requests that can be completed -/

/-- What Agents do from a start up to a limit: they claim tasks, upload outputs and report
them, or the Manager gives a claim back for them. -/
def Operation.isWork (start limit : Int) : Operation → Prop
  | .claimTask call => start ≤ call.nowMs ∧ call.nowMs < limit
  | .releaseClaim _ _ _ now => start ≤ now ∧ now < limit
  | .acceptResult _ _ now _ => start ≤ now ∧ now < limit
  | .changeObject _ contents => contents.isSome = true
  | _ => False

/-- Some work of Agents from a start up to a limit lets the request succeed. -/
def Completable (settings : Settings) (start limit : Int) (requestId : String)
    (state : QueueState) : Prop :=
  ∃ work : List Operation, (∀ operation ∈ work, operation.isWork start limit) ∧
    ∃ request, (work.foldl (execute env settings) state).store.requests[requestId]? = some request ∧
      request.state = .succeeded

/-- The earliest time at which a waiting task can be claimed. -/
def TaskRecord.begins (task : TaskRecord) (start : Int) : Int := max start task.availableAtMs

/-- The task has succeeded, or an Agent can complete it before the limit and its own
deadline. A claimed task can be given back at the start. -/
def Finishable (store : Store) (start limit : Int) (task : TaskRecord) : Prop :=
  task.state = .succeeded ∨ Served env store task ∧
    (task.state = .claimed ∧ task.deadlinePassed start = false ∨
      TaskState.runnable task.state = true ∧ task.begins start < limit ∧
        task.deadlinePassed (task.begins start) = false)

/-- An open request whose tasks have succeeded or can be completed. -/
structure Awaiting (start limit : Int) (requestId : String) (request : RequestRecord)
    (state : QueueState) : Prop where
  stored : state.store.requests[requestId]? = some request
  unpublished : request.published = false
  unfinished : request.state.terminal = false
  tasks : ∀ taskId ∈ request.taskIds, ∀ task, state.store.tasks[taskId]? = some task →
    Finishable env state.store start limit task

section Work

variable {env : Environment} {settings : Settings} {start limit : Int}

theorem runnable_ne {state other : TaskState} (waits : runnable state = true)
    (busy : runnable other = false) : state ≠ other := by
  rintro rfl
  rw [busy] at waits
  cases waits

theorem deadlinePassed_mono {early late : Int} (order : early ≤ late)
    (timely : task.deadlinePassed late = false) : task.deadlinePassed early = false := by
  simp only [deadlinePassed, decide_eq_false_iff_not, not_and, not_le] at timely ⊢
  intro limited
  exact lt_of_le_of_lt order (timely limited)

/-- A task that can be completed is neither failed nor cancelled. -/
theorem Finishable.not_failed (finishable : Finishable env store start limit task) :
    task.state ≠ .failed := by
  rcases finishable with done | ⟨_, ⟨held, _⟩ | ⟨waits, _⟩⟩
  · rw [done]
    decide
  · rw [held]
    decide
  · exact runnable_ne waits rfl

/-- Whether a task is served depends on the coordinator, the memberships and the
generation of the task only. -/
theorem Served.of_eq {other : Store} {later : TaskRecord} (served : Served env store task)
    (coordinator : other.coordinator = store.coordinator)
    (memberships : other.memberships = store.memberships)
    (generationId : later.task.generationId = task.task.generationId)
    (generationFence : later.task.generationFence = task.task.generationFence)
    (planSha256 : later.task.planSha256 = task.task.planSha256) : Served env other later := by
  simpa only [Served, currentGeneration, coordinator, memberships, generationId, generationFence,
    planSha256] using served

theorem Finishable.of_eq {other : Store} (finishable : Finishable env store start limit task)
    (coordinator : other.coordinator = store.coordinator)
    (memberships : other.memberships = store.memberships) :
    Finishable env other start limit task :=
  finishable.imp_right fun rest => ⟨rest.1.of_eq coordinator memberships rfl rfl rfl, rest.2⟩

/-- A served task has an Agent whose report the membership admits. -/
theorem Served.agent (served : Served env store task) :
    ∃ (agentId agentLeaseId : String) (workerFence : Int), ∀ result : TaskResult,
      result.agentId = agentId → result.generationId = task.task.generationId →
        result.workerFence = workerFence →
          admittedByMembership env store result agentLeaseId = true := by
  by_cases unnamed : task.task.generationId = ""
  · refine ⟨"agent", "lease", 0, ?_⟩
    intro result _ generation _
    rw [admittedByMembership, if_pos (generation.trans unnamed)]
  · rcases served.2 with impossible | workers
    · exact absurd impossible unnamed
    · cases found : store.memberships[task.task.generationId]? with
      | none =>
        refine ⟨"agent", "lease", 0, ?_⟩
        intro result _ generation _
        simp only [admittedByMembership, generation, if_neg unnamed, found]
      | some membership =>
        obtain ⟨agentId, worker, agentLeaseId, member, active, lease⟩ := workers membership found
        refine ⟨agentId, agentLeaseId, worker.workerFence, ?_⟩
        intro result agent generation fence
        simp only [admittedByMembership, generation, if_neg unnamed, found, agent, member,
          active, lease, fence, and_self, decide_true]

/-- A fresh claim on a task in time is not due at the time it is made. -/
theorem claimed_not_lapsed (call : ClaimCall) (settings : Settings) {waiting : TaskRecord}
    (timely : waiting.deadlinePassed call.nowMs = false) :
    (claimed env call settings.taskLeaseSeconds waiting).claimLapsed call.nowMs = false := by
  have lease := settings.lease_positive
  have inTime : (claimed env call settings.taskLeaseSeconds waiting).deadlinePassed call.nowMs =
    false := timely
  have later : call.nowMs < (claimed env call settings.taskLeaseSeconds waiting).claimExpiry := by
    show call.nowMs < leaseExpiry call.nowMs settings.taskLeaseSeconds waiting.task.deadlineMs
    simp only [deadlinePassed, decide_eq_false_iff_not, not_and, not_le] at timely
    unfold leaseExpiry
    split
    · omega
    · next limited =>
      have before := timely limited
      omega
  simp only [claimLapsed, inTime, decide_eq_false_iff_not, not_and, not_or, not_le]
  exact fun _ => ⟨later, Bool.false_ne_true⟩

variable {contents : Bytes} {rows : Int}

/-- The report on an uploaded output under a fresh claim passes the checks on the output. -/
theorem workReport_settles {agentId agentLeaseId : String} {workerFence now : Int}
    {waiting : TaskRecord} (readable : env.parquetRows contents = some rows)
    (sameWork : waiting.task = task.task)
    (sameAttempt : waiting.attempt = task.attempt)
    (present : store.objects[stagingKey env task.task.outputKey task.task.generationId taskId
      (task.attempt + 1) "token"]? = some contents) :
    let call := workClaim agentId agentLeaseId workerFence now taskId
    let report := workReport env agentId workerFence taskId task contents rows
    let claim := newClaim env call settings.taskLeaseSeconds waiting
    let held := claimed env call settings.taskLeaseSeconds waiting
    settleResult env settings store now report claim held =
      .ok (succeeded now report claim held, successEntry now report claim) := by
  intro call report claim held
  have key : claim.stagingKey = stagingKey env task.task.outputKey task.task.generationId taskId
      (task.attempt + 1) "token" := by
    simp only [claim, newClaim, call, workClaim, sameWork, sameAttempt]
  have own : ¬(claim.stagingKey = "" ∨ claim.stagingKey ≠ stagingKey env held.task.outputKey
      held.task.generationId report.taskId held.attempt claim.claimToken) := by
    rintro (empty | different)
    · rw [key] at empty
      have characters := congrArg String.toList empty
      simp [stagingKey] at characters
    · exact different rfl
  have verified : verifyOutput env store claim.stagingKey report = none := by
    have etag : ¬(report.s3Etag.toList.length ≠ 32 ∨ report.s3Etag.toList.any fun character =>
        character ∉ "0123456789abcdefABCDEF".toList) := by
      simp only [report, workReport, String.toList_ofList]
      decide
    have size : ¬((contents.length : Int) ≠ report.sizeBytes) := fun different => different rfl
    have hash : ¬(env.contentHash contents ≠ report.contentHash) := fun different => different rfl
    have count : ¬(rows ≠ report.recordCount) := fun different => different rfl
    simp only [verifyOutput, key, present, if_neg size, if_neg hash, if_neg etag, readable,
      if_neg count]
  have reported : report.ok = true := rfl
  simp only [settleResult, reported, if_true, if_neg own, verified]

/-- The effect of work on one task of a request: the task is replaced, the other tasks are
as they were, and the request has the state of its tasks. -/
structure Replaced (requestId : String) (taskIds : List String) (taskId : String) (new : TaskRecord)
    (state next : QueueState) : Prop where
  requested : ∃ later, next.store.requests[requestId]? = some later ∧ later.taskIds = taskIds ∧
    later.published = false ∧
      later.state = (refreshOutcome later (next.store.tasksOf later)).1
  own : next.store.tasks[taskId]? = some new
  others : ∀ other ∈ taskIds, other ≠ taskId →
    next.store.tasks[other]? = state.store.tasks[other]?
  coordinator : next.store.coordinator = state.store.coordinator
  memberships : next.store.memberships = state.store.memberships

/-- A refresh after the write of one task. -/
theorem Pending.replaced {requestId taskId : String} {request : RequestRecord}
    {state middle : QueueState} {new : TaskRecord} (pending : Pending requestId request state)
    (settings : Settings) (now : Int) (intact : Intact middle.store)
    (owned : Owned env middle.store) (listed : taskId ∈ request.taskIds)
    (unfailed : new.state ≠ .failed) (requests : middle.store.requests = state.store.requests)
    (tasks : middle.store.tasks = assign state.store.tasks taskId (some new))
    (coordinator : middle.store.coordinator = state.store.coordinator)
    (memberships : middle.store.memberships = state.store.memberships) :
    Replaced requestId request.taskIds taskId new state (WorkQueue.refreshRequests now middle) := by
  obtain ⟨sameTasks, requested⟩ :=
    (pending.put requests tasks unfailed).refreshRequests settings now intact owned
  refine ⟨requested, ?_, ?_, ?_, ?_⟩
  · rw [sameTasks taskId listed, tasks]
    exact getElem?_assign_self _ _ _
  · intro other inside apart
    rw [sameTasks other inside, tasks]
    exact getElem?_assign_of_ne _ _ (.symm apart)
  · exact (refreshRequests_view Store.coordinator (fun _ _ _ => rfl) (fun _ _ _ => rfl) now
      _).trans coordinator
  · exact (refreshRequests_view Store.memberships (fun _ _ _ => rfl) (fun _ _ _ => rfl) now
      _).trans memberships

theorem Awaiting.pending (awaiting : Awaiting env start limit requestId request state) :
    Pending requestId request state :=
  ⟨awaiting.stored, awaiting.unpublished, awaiting.unfinished, fun taskId listed task found =>
    (awaiting.tasks taskId listed task found).not_failed⟩

/-- The steps that a task needs until it has succeeded: one completion, and one return
before it when the task is claimed. -/
def stepsLeft (store : Store) (taskId : String) : Nat :=
  match store.tasks[taskId]? with
  | none => 0
  | some task => if task.state = .succeeded then 0 else if task.state = .claimed then 2 else 1

/-- Among tasks that wait there is one that becomes available first. -/
theorem exists_earliest {ids : List String} (waiting : String → Prop) (time : String → Int)
    (some_ : ∃ taskId ∈ ids, waiting taskId) :
    ∃ taskId ∈ ids, waiting taskId ∧ ∀ other ∈ ids, waiting other → time taskId ≤ time other := by
  classical
  obtain ⟨taskId, inside, waits⟩ := some_
  obtain ⟨first, member, least⟩ := Finset.exists_min_image (ids.filter waiting).toFinset time
    ⟨taskId, by simp [inside, waits]⟩
  simp only [mem_toFinset, mem_filter, decide_eq_true_eq] at member least
  exact ⟨first, member.1, member.2, fun other listed waits => least other ⟨listed, waits⟩⟩

section

variable (reachable : Reachable env settings state)
  (awaiting : Awaiting env start limit requestId request state)
include reachable awaiting

/-- The claim, the upload and the report of the task that becomes available first. -/
theorem Awaiting.complete (readable : env.parquetRows contents = some rows)
    (listed : taskId ∈ request.taskIds)
    (stored : state.store.tasks[taskId]? = some task) (waits : runnable task.state = true)
    (unheld : ∀ other ∈ request.taskIds, ∀ sibling,
      state.store.tasks[other]? = some sibling → sibling.state ≠ .claimed)
    (earliest : ∀ other ∈ request.taskIds, ∀ sibling, state.store.tasks[other]? = some sibling →
      runnable sibling.state = true → task.begins start ≤ sibling.begins start) :
    ∃ (work : List Operation) (new : TaskRecord),
      (∀ operation ∈ work, operation.isWork start limit) ∧ new.state = .succeeded ∧
      Replaced requestId request.taskIds taskId new state
        (work.foldl (execute env settings) state) := by
  obtain ⟨served, soon, timely⟩ : Served env state.store task ∧
      task.begins start < limit ∧ task.deadlinePassed (task.begins start) = false := by
    rcases awaiting.tasks taskId listed task stored with done | ⟨served, ⟨held, _⟩ | ⟨_, rest⟩⟩
    · exact absurd done (runnable_ne waits rfl)
    · exact absurd held (runnable_ne waits rfl)
    · exact ⟨served, rest⟩
  obtain ⟨agentId, agentLeaseId, workerFence, admitted⟩ := served.agent
  obtain ⟨⟨generation, current, same⟩, _⟩ := served
  let now := task.begins start
  let call := workClaim agentId agentLeaseId workerFence now taskId
  let key := stagingKey env task.task.outputKey task.task.generationId taskId (task.attempt + 1)
    "token"
  let report := workReport env agentId workerFence taskId task contents rows
  obtain ⟨waiting, origin, frame, claimedTask, otherTasks⟩ :=
    @claimTask_claims env settings state call rfl task stored waits (le_max_right _ _)
  obtain ⟨sameWork, sameAttempt⟩ : waiting.task = task.task ∧ waiting.attempt = task.attempt := by
    rcases origin with rfl | rfl
    · exact ⟨rfl, rfl⟩
    · exact ⟨rfl, rfl⟩
  let claim := newClaim env call settings.taskLeaseSeconds waiting
  let held := claimed env call settings.taskLeaseSeconds waiting
  have begun : start ≤ now := le_max_left _ _
  refine ⟨[.claimTask call, .changeObject key (some contents),
    .acceptResult report agentLeaseId now now], succeeded now report claim held, ?_, rfl, ?_⟩
  · intro operation member
    simp only [mem_cons, not_mem_nil, or_false] at member
    rcases member with rfl | rfl | rfl
    · exact ⟨begun, soon⟩
    · exact rfl
    · exact ⟨begun, soon⟩
  simp only [foldl_cons, foldl_nil]
  have reached := (reachable.execute (.claimTask call)).execute (.changeObject key (some contents))
  have uploaded : (execute env settings (execute env settings state (.claimTask call))
      (.changeObject key (some contents))).store = { state.store with
        tasks := (claimTask env settings call state).2.store.tasks
        objects := assign state.store.objects key (some contents) } := by
    simp only [execute, QueueState.perform_store, Store.apply] at frame ⊢
    rw [frame]
  generalize execute env settings (execute env settings state (.claimTask call))
    (.changeObject key (some contents)) = middle at reached uploaded ⊢
  have intact := reached.intact
  have owned := reached.owned
  have found : middle.store.tasks[taskId]? = some held := by
    rw [uploaded]
    exact claimedTask
  have others : ∀ other, other ≠ taskId → middle.store.tasks[other]? = state.store.tasks[other]? := by
    intro other apart
    rw [uploaded]
    exact otherTasks other apart
  have pending : Pending requestId request middle := by
    refine ⟨by rw [uploaded]; exact awaiting.stored, awaiting.unpublished, awaiting.unfinished, ?_⟩
    intro other inside sibling present
    by_cases same : other = taskId
    · subst same
      obtain rfl : sibling = held := Option.some.inj (present.symm.trans found)
      exact fun failed => by cases failed
    · exact (awaiting.tasks other inside sibling ((others other same).symm.trans present)).not_failed
  have calm : ∀ other ∈ request.taskIds, ∀ sibling, middle.store.tasks[other]? = some sibling →
      sibling.waitingPastDeadline now = false ∧ sibling.claimLapsed now = false := by
    intro other inside sibling present
    by_cases same : other = taskId
    · subst same
      obtain rfl : sibling = held := Option.some.inj (present.symm.trans found)
      refine ⟨by simp [waitingPastDeadline, held, claimed, runnable], ?_⟩
      have inTime : waiting.deadlinePassed now = false := by
        simpa only [deadlinePassed, sameWork] using timely
      exact claimed_not_lapsed call settings inTime
    · rw [others other same] at present
      have lapsed : sibling.claimLapsed now = false := by
        simp [claimLapsed, unheld other inside sibling present]
      refine ⟨?_, lapsed⟩
      rcases awaiting.tasks other inside sibling present with
        done | ⟨_, ⟨held, _⟩ | ⟨later, _, open_⟩⟩
      · simp [waitingPastDeadline, done, runnable]
      · exact absurd held (unheld other inside sibling present)
      · have early := deadlinePassed_mono (earliest other inside sibling present later) open_
        simp [waitingPastDeadline, now, early]
  obtain ⟨sameTasks, later, sameIds, open_⟩ := pending.expireClaims settings now intact owned calm
    ⟨taskId, listed, held, found, fun done => by cases done⟩
  have foundLater := (sameTasks taskId listed).trans found
  have ownedLater := owned.expireClaims now
  have objects := expireClaims_view Store.objects (fun _ _ _ => rfl) (fun _ _ _ => rfl) now middle
  have memberships :=
    expireClaims_view Store.memberships (fun _ _ _ => rfl) (fun _ _ _ => rfl) now middle
  have coordinator :=
    expireClaims_view Store.coordinator (fun _ _ _ => rfl) (fun _ _ _ => rfl) now middle
  rw [uploaded] at objects memberships coordinator
  have unanswered : middle.store.results[(⟨taskId, task.attempt + 1⟩ : Versioned)]? = none := by
    cases present : middle.store.results[(⟨taskId, task.attempt + 1⟩ : Versioned)]? with
    | none => rfl
    | some answer =>
      rw [uploaded] at present
      obtain ⟨operations, rfl⟩ := reachable
      obtain ⟨known, knownStored, counted⟩ := run_answered env settings operations _ answer present
      cases stored.symm.trans knownStored
      exact absurd counted (by simp)
  have checked : checkClaim env held report agentLeaseId = .ok claim := by
    simp [checkClaim, held, claim, claimed, newClaim, report, call, workReport, workClaim,
      sameAttempt]
  have named : namesGeneration held report = true := by
    simp [namesGeneration, held, claimed, report, workReport, sameWork]
  have running : (generation.any fun context => supersedes context report) = false := by
    cases generation with
    | none => rfl
    | some context =>
      obtain ⟨sameId, sameFence, samePlan⟩ := same context rfl
      simp [supersedes, report, workReport, sameId, sameFence, samePlan]
  have settles : settleResult env settings (expireClaims now middle).2.store now report claim held =
      .ok (succeeded now report claim held, successEntry now report claim) := by
    refine workReport_settles readable sameWork sameAttempt ?_
    rw [objects]
    exact getElem?_assign_self _ _ _
  have accepted := @acceptResult_settles env settings middle report agentLeaseId now now held _ claim
    _ generation unanswered foundLater rfl checked
    (by simpa only [admittedByMembership, memberships] using admitted report rfl rfl rfl) named
    (by simpa only [currentGeneration, coordinator] using current) running settles
  have writes : Moves env settings {} [.acceptResult] (expireClaims now middle).2
      ((expireClaims now middle).2.perform .acceptResult
        (.task taskId (some (succeeded now report claim held)))) :=
    Moves.task (by simp) foundLater (.succeeded now report claim held rfl) (by simp)
  have intactLater := ((intact_preserved env settings).expireClaims intact owned now).of_advancing
    ownedLater writes (by simp)
  have replaced := @Pending.replaced env requestId taskId later _
    (((expireClaims now middle).2.perform .acceptResult
      (.task taskId (some (succeeded now report claim held)))).perform .acceptResult
        (.result ⟨taskId, held.attempt⟩ (some
          { taskId := taskId
            attempt := held.attempt
            state := .succeeded
            result := successEntry now report claim
            agentLeaseHash := claim.agentLeaseHash }))) _ open_ settings now
    (intactLater.advance (.of_eq rfl) rfl)
    ((writes.owned ownedLater).neutral_update .acceptResult rfl) (sameIds ▸ listed)
    (fun failed => by cases failed) rfl rfl rfl rfl
  rw [execute, accepted]
  refine ⟨sameIds ▸ replaced.requested, replaced.own, ?_, replaced.coordinator.trans coordinator,
    replaced.memberships.trans memberships⟩
  intro other inside apart
  exact ((replaced.others other (sameIds ▸ inside) apart).trans (sameTasks other inside)).trans
    (others other apart)

/-- Giving back the claim of a task lets it wait. -/
theorem Awaiting.release (ahead : start < limit) (listed : taskId ∈ request.taskIds)
    (stored : state.store.tasks[taskId]? = some task)
    (held : task.state = .claimed) :
    ∃ (work : List Operation) (new : TaskRecord),
      (∀ operation ∈ work, operation.isWork start limit) ∧ new.state = .retryWait ∧
      Replaced requestId request.taskIds taskId new state (work.foldl (execute env settings) state) ∧
      Finishable env state.store start limit new := by
  let new := returned start (env.safeError "undelivered") task
  refine ⟨[.releaseClaim taskId ((task.claim.map Claim.claimToken).getD "") "undelivered" start],
    new, ?_, rfl, ?_, ?_⟩
  · intro operation member
    rw [mem_singleton.mp member]
    exact ⟨le_refl start, ahead⟩
  · have shape : execute env settings state (.releaseClaim taskId
        ((task.claim.map Claim.claimToken).getD "") "undelivered" start) =
          refreshRequests start (state.perform .releaseClaim (.task taskId (some new))) := by
      simp only [execute, releaseClaim, stored, held, ne_eq, not_true_eq_false, if_false]
      rfl
    have writes : Moves env settings {} [.releaseClaim] state
        (state.perform .releaseClaim (.task taskId (some new))) :=
      .task (by simp) stored (.released start _ task held) (by simp)
    have owned := reachable.owned
    have intact := reachable.intact.of_advancing owned writes
      (by simp)
    rw [foldl_cons, foldl_nil, shape]
    exact awaiting.pending.replaced settings start intact (writes.owned owned) listed
      (fun failed => by cases failed) rfl rfl rfl rfl
  · rcases awaiting.tasks taskId listed task stored with done | ⟨served, ⟨_, timely⟩ | ⟨waits, _⟩⟩
    · rw [held] at done
      cases done
    · refine .inr ⟨served.of_eq rfl rfl rfl rfl rfl, .inr ⟨rfl, ?_, ?_⟩⟩
      · simpa [begins, new, returned] using ahead
      · simpa [begins, new, returned, deadlinePassed] using timely
    · exact absurd held (runnable_ne waits rfl)

/-- As long as a task is left, some work brings the request closer to its end. -/
theorem Awaiting.step (ahead : start < limit) (readable : env.parquetRows contents = some rows)
    (left : ∃ taskId ∈ request.taskIds, ∃ task,
      state.store.tasks[taskId]? = some task ∧ task.state ≠ .succeeded) :
    ∃ (work : List Operation) (taskId : String) (new : TaskRecord),
      (∀ operation ∈ work, operation.isWork start limit) ∧ taskId ∈ request.taskIds ∧
      Replaced requestId request.taskIds taskId new state (work.foldl (execute env settings) state) ∧
      Finishable env state.store start limit new ∧
      stepsLeft (work.foldl (execute env settings) state).store taskId <
        stepsLeft state.store taskId := by
  by_cases held : ∃ taskId ∈ request.taskIds, ∃ task,
      state.store.tasks[taskId]? = some task ∧ task.state = .claimed
  · obtain ⟨taskId, listed, task, stored, claimed⟩ := held
    obtain ⟨work, new, worked, waits, replaced, finishable⟩ :=
      awaiting.release reachable ahead listed stored claimed
    refine ⟨work, taskId, new, worked, listed, replaced, finishable, ?_⟩
    simp [stepsLeft, replaced.own, waits, stored, claimed]
  · push Not at held
    -- Without claimed tasks, every task that is not done waits.
    have waits : ∀ taskId ∈ request.taskIds, ∀ task, state.store.tasks[taskId]? = some task →
        task.state ≠ .succeeded → runnable task.state = true := by
      intro taskId listed task stored undone
      rcases awaiting.tasks taskId listed task stored with done | ⟨_, ⟨claimed, _⟩ | ⟨waits, _⟩⟩
      · exact absurd done undone
      · exact absurd claimed (held taskId listed task stored)
      · exact waits
    obtain ⟨taskId, listed, ⟨task, stored, undone⟩, earliest⟩ := exists_earliest
      (fun taskId => ∃ task, state.store.tasks[taskId]? = some task ∧ task.state ≠ .succeeded)
      (fun taskId => (state.store.tasks[taskId]?.map (begins · start)).getD 0) left
    obtain ⟨work, new, worked, done, replaced⟩ := awaiting.complete reachable readable listed stored
      (waits taskId listed task stored undone) held (by
        intro other inside sibling present later
        have first := earliest other inside ⟨sibling, present, runnable_ne later rfl⟩
        simpa only [stored, present, Option.map_some, Option.getD_some] using first)
    refine ⟨work, taskId, new, worked, listed, replaced, .inl done, ?_⟩
    simp [stepsLeft, replaced.own, done, stored, undone, held taskId listed task stored]

end

/-- An open request whose tasks have succeeded or can be completed, not all of them done
already, can be completed. -/
theorem Awaiting.completable (ahead : start < limit)
    (readable : env.parquetRows contents = some rows) (size : Nat) (state : QueueState)
    (reachable : Reachable env settings state) (request : RequestRecord)
    (awaiting : Awaiting env start limit requestId request state)
    (sized : (request.taskIds.map (stepsLeft state.store)).sum = size)
    (left : ∃ taskId ∈ request.taskIds, ∃ task,
      state.store.tasks[taskId]? = some task ∧ task.state ≠ .succeeded) :
    Completable env settings start limit requestId state := by
  induction size using Nat.strong_induction_on generalizing state request with
  | _ size ih =>
  subst sized
  obtain ⟨work, taskId, new, worked, listed, replaced, finishable, less⟩ :=
    awaiting.step reachable ahead readable left
  have reached : Reachable env settings (work.foldl (execute env settings) state) :=
    List.foldlRecOn work _ reachable fun _ before operation _ => before.execute operation
  generalize result : work.foldl (execute env settings) state = next at replaced less reached
  have kept : ∀ other ∈ request.taskIds, ∀ sibling, next.store.tasks[other]? = some sibling →
      Finishable env next.store start limit sibling := by
    intro other inside sibling present
    refine .of_eq ?_ replaced.coordinator replaced.memberships
    by_cases same : other = taskId
    · subst same
      cases replaced.own.symm.trans present
      exact finishable
    · exact awaiting.tasks other inside sibling
        ((replaced.others other inside same).symm.trans present)
  suffices Completable env settings start limit requestId next by
    obtain ⟨further, isWork, done⟩ := this
    refine ⟨work ++ further, ?_, ?_⟩
    · intro operation member
      exact (mem_append.mp member).elim (worked operation) (isWork operation)
    · rwa [foldl_append, result]
  obtain ⟨later, stored, sameIds, unpublished, outcome⟩ := replaced.requested
  rw [← sameIds] at kept
  by_cases further : ∃ other ∈ later.taskIds, ∃ sibling, next.store.tasks[other]? = some sibling ∧
      sibling.state ≠ .succeeded
  · refine ih _ ?_ next reached later ⟨stored, unpublished, ?_, kept⟩ rfl further
    · rw [sameIds]
      refine sum_lt_sum _ _ ?_ ⟨taskId, listed, less⟩
      intro other inside
      by_cases same : other = taskId
      · exact same ▸ less.le
      · rw [stepsLeft, stepsLeft, replaced.others other inside same]
    · rw [outcome]
      refine refreshOutcome_open ?_ ?_
      · intro sibling inside
        obtain ⟨other, otherListed, present⟩ := mem_filterMap.mp inside
        exact (kept other otherListed sibling present).not_failed
      · obtain ⟨other, inside, sibling, present, unfinished⟩ := further
        exact ⟨sibling, mem_filterMap.mpr ⟨other, inside, present⟩, unfinished⟩
  · push Not at further
    refine ⟨[], by simp, later, stored, ?_⟩
    rw [outcome, refreshOutcome, if_pos]
    constructor
    · exact ne_nil_of_mem (mem_filterMap.mpr ⟨taskId, sameIds ▸ listed, replaced.own⟩)
    · intro sibling inside
      obtain ⟨other, otherListed, present⟩ := mem_filterMap.mp inside
      exact further other otherListed sibling present

end Work

end ShortcutProxy.WorkQueue
