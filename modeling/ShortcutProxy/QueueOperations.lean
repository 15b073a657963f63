import ShortcutProxy.QueueWrites

/-!
# Operations as sequences of updates

Each queue operation, started from a store in which tasks are owned, is a finite
sequence of updates. This is the only place where the bodies of the operations
are opened: what holds of every update and composes holds of every operation,
and then of every run.

Loops over a listing use stale copies. The walking rule for listed tasks says
that this is harmless when an iteration writes no task but its own. The one loop
that may visit a task twice is the cancellation of siblings, because a request
may list a task identifier twice; its second write repeats the first.
-/
namespace ShortcutProxy.WorkQueue

open Contract Generation Records List Store

section Operations

variable {env : Environment} {settings : Settings} {permits : Permits} {writers : List Writer}

/-! ## Steps and loops -/

variable {state : QueueState} {now managerFence : Int} {task : TaskRecord} {request : RequestRecord}
  {taskId requestId reason agentId agentLeaseId generationId managerOwner : String}
  {taskIds outputKeys keep : List String}

/-- A loop over the listed tasks meets each of them as it was listed. -/
theorem Owned.walkTasks (owned : Owned env state.store)
    (visit : TaskRecord → QueueState → QueueState) (related : QueueState → QueueState → Prop)
    (reflexive : ∀ {current}, related current current)
    (transitive : ∀ {first second third}, related first second → related second third →
      related first third)
    (visited : ∀ current task, current.store.tasks[task.taskId]? = some task →
      related current (visit task current))
    (kept : ∀ current task (other : String), task.taskId ≠ other →
      (visit task current).store.tasks[other]? = current.store.tasks[other]?) :
    related state (state.store.listTasks.foldl (fun current task => visit task current) state) := by
  refine Records.walk (fun current task => current.store.tasks[task.taskId]? = some task) visit
    related reflexive transitive (fun first second => first.taskId ≠ second.taskId) visited
    ?_ _ state ?_ ?_
  · intro current task other apart present
    rw [kept current task other.taskId apart]
    exact present
  · intro task member
    obtain ⟨key, stored⟩ := (mem_listing _ _).mp member
    rw [owned.taskKey key task stored]
    exact stored
  · exact listing_pairwise _ _ owned.taskKey

/-- A loop over the listed tasks that gives each of them a new version, and touches no other
task on the way, updates every task once. -/
theorem updatedTasks
    (taskKey : ∀ (key : String) (task : TaskRecord), state.store.tasks[key]? = some task →
      task.taskId = key) (visit : TaskRecord → QueueState → QueueState)
    (update : TaskRecord → TaskRecord)
    (visited : ∀ current task, current.store.tasks[task.taskId]? = some task →
      (visit task current).store.tasks[task.taskId]? = some (update task))
    (kept : ∀ current task (other : String), task.taskId ≠ other →
      (visit task current).store.tasks[other]? = current.store.tasks[other]?) (taskId : String) :
    (state.store.listTasks.foldl (fun current task => visit task current)
      state).store.tasks[taskId]? = state.store.tasks[taskId]?.map update := by
  have frame : ∀ (tasks : List TaskRecord) (current : QueueState),
      (∀ task ∈ tasks, task.taskId ≠ taskId) →
        (tasks.foldl (fun inner task => visit task inner) current).store.tasks[taskId]? =
          current.store.tasks[taskId]? := fun tasks current others =>
    view_foldl_mem (fun store => store.tasks[taskId]?) _ tasks
      (fun task inside inner => kept inner task taskId (others task inside)) current
  cases found : state.store.tasks[taskId]? with
  | none =>
    rw [frame, found, Option.map_none]
    rintro task member rfl
    obtain ⟨key, stored⟩ := (mem_listing _ _).mp member
    rw [taskKey key task stored, stored] at found
    cases found
  | some copy =>
    obtain rfl := taskKey taskId copy found
    obtain ⟨early, late, shape⟩ :=
      append_of_mem ((mem_listing state.store.tasks copy).mpr ⟨_, found⟩)
    have distinct := listing_pairwise state.store.tasks TaskRecord.taskId taskKey
    rw [shape] at distinct
    obtain ⟨_, afterwards, across⟩ := pairwise_append.mp distinct
    rw [listTasks, shape, foldl_append, foldl_cons,
      frame late _ fun other inside => ((pairwise_cons.mp afterwards).1 other inside).symm,
      Option.map_some]
    refine visited _ copy ?_
    rw [frame early state fun other inside => across other inside copy mem_cons_self]
    exact found

theorem Moves.listed (visit : TaskRecord → QueueState → QueueState)
    (within : ∀ {state task}, Within writers state (visit task state))
    (visited : ∀ state task, state.store.tasks[task.taskId]? = some task →
      Leads env settings permits state (visit task state))
    (kept : ∀ state task (other : String), task.taskId ≠ other →
      (visit task state).store.tasks[other]? = state.store.tasks[other]?) :
    Moves env settings permits writers state
      (state.store.listTasks.foldl (fun current task => visit task current) state) :=
  ⟨.foldl within, fun owned => owned.walkTasks visit (Leads env settings permits)
    .refl .trans visited kept owned⟩

/-! ## Expiry and refresh -/

theorem expireTask_leads (now : Int) (state : QueueState) (task : TaskRecord)
    (stored : state.store.tasks[task.taskId]? = some task) :
    Leads env settings permits state (expireTask now task state) := by
  unfold expireTask
  split
  · next due => exact .task stored (.deadlineExpired now task due) (by simp)
  · split
    · next due =>
      refine (Leads.task stored (.claimExpired now task due) (by simp)).trans ?_
      refine .task ?_ (.expirySettled _ (claimExpired now task) rfl ?_) (by simp)
      · simp [apply]
      · unfold expiryTarget
        split
        · exact .inl rfl
        · exact .inr rfl
    · exact .refl

theorem expireTask_within (expires : .expireClaims ∈ writers) :
    Within writers state (expireTask now task state) := by
  unfold expireTask
  refine .ite (fun _ => .perform expires rfl) fun _ => ?_
  refine .ite (fun _ => ?_) fun _ => .refl
  exact (Within.perform expires rfl).trans (.perform expires rfl)

theorem expireTask_kept (now : Int) (state : QueueState) (task : TaskRecord) (other : String)
    (apart : task.taskId ≠ other) :
    (expireTask now task state).store.tasks[other]? = state.store.tasks[other]? := by
  unfold expireTask
  split
  · simp [apply, getElem?_assign, apart]
  · split
    · simp [apply, getElem?_assign, apart]
    · rfl

/-- Cancelling copies of tasks writes each of them once, or again as it already
is. Copies of one identifier agree because they were read from one store. -/
theorem cancelSiblings_leads (tasks : List TaskRecord)
    (present : ∀ task ∈ tasks, state.store.tasks[task.taskId]? = some task) :
    Leads env settings permits state (cancelSiblings now tasks state) := by
  refine Records.walk
    (fun current task => task.state.terminal = false ∧
      (current.store.tasks[task.taskId]? = some task ∨
        current.store.tasks[task.taskId]? = some (siblingCancelled now task)))
    (fun task current => current.perform .refreshRequests
      (.task task.taskId (some (siblingCancelled now task))))
    (Leads env settings permits) .refl .trans
    (fun first second => first.taskId = second.taskId → first = second) ?_ ?_ _ state ?_ ?_
  · rintro current task ⟨unfinished, unchanged | repeated⟩
    · exact .task unchanged (.siblingCancelled now task unfinished) (by simp)
    · exact .task repeated (.siblingRepeated now task) (by simp)
  · rintro current task other agree ⟨unfinished, stored⟩
    refine ⟨unfinished, ?_⟩
    by_cases same : task.taskId = other.taskId
    · obtain rfl := agree same
      exact .inr (by simp [apply])
    · simpa [apply, getElem?_assign, same] using stored
  · intro task member
    obtain ⟨inside, unfinished⟩ := mem_filter.mp member
    exact ⟨by simpa using unfinished, .inl (present task inside)⟩
  · refine pairwise_of_forall_mem_list ?_
    intro first firstMember second secondMember same
    have firstStored := present first (mem_filter.mp firstMember).1
    have secondStored := present second (mem_filter.mp secondMember).1
    rw [same, secondStored] at firstStored
    exact (Option.some.inj firstStored).symm

theorem tasksOf_stored (owned : Owned env store) (request : RequestRecord) (task : TaskRecord)
    (member : task ∈ store.tasksOf request) : store.tasks[task.taskId]? = some task := by
  obtain ⟨taskId, _, stored⟩ := mem_filterMap.mp member
  rw [owned.taskKey taskId task stored]
  exact stored

/-- A refresh leaves a settled request alone. An open one is written after its tasks were
cancelled when one of them had failed. -/
theorem refreshRequest_cases (now : Int) (requestId : String) (state : QueueState) :
    refreshRequest now requestId state = state ∨
      ∃ request settled, state.store.requests[requestId]? = some request ∧
        request.published = false ∧ request.state.terminal = false ∧
        (settled = state ∧ (refreshOutcome request (state.store.tasksOf request)).1 ≠ .failed ∨
          settled = cancelSiblings now (state.store.tasksOf request) state ∧
            (refreshOutcome request (state.store.tasksOf request)).1 = .failed) ∧
        settled.store.requests = state.store.requests ∧
        refreshRequest now requestId state = settled.perform .refreshRequests
          (.request requestId (some
            { request with
              state := (refreshOutcome request (state.store.tasksOf request)).1
              error := (refreshOutcome request (state.store.tasksOf request)).2
              updatedAtMs := now })) := by
  unfold refreshRequest
  split
  · exact .inl rfl
  · next request stored =>
    split
    · exact .inl rfl
    · next unsettled =>
      obtain ⟨unpublished, unfinished⟩ := not_or.mp unsettled
      refine .inr ⟨request, _, stored, by simpa using unpublished, by simpa using unfinished,
        ?_, ?_, rfl⟩
      · split
        · next failed => exact .inr ⟨rfl, failed⟩
        · next unfailed => exact .inl ⟨rfl, unfailed⟩
      · split
        · refine view_foldl requests _ ?_ _ state
          exact fun _ _ => rfl
        · rfl

theorem refreshRequest_moves (member : .refreshRequests ∈ writers) :
    Moves env settings permits writers state (refreshRequest now requestId state) := by
  rcases refreshRequest_cases now requestId state with
    same | ⟨request, settled, stored, unpublished, unfinished, origin, requests, shape⟩
  · rw [same]
    exact .refl
  · have settling : Moves env settings permits writers state settled := by
      rcases origin with ⟨rfl, _⟩ | ⟨rfl, _⟩
      · exact .refl
      · exact ⟨.foldl (.perform member rfl),
          fun owned => cancelSiblings_leads _
            (fun task => tasksOf_stored owned request task) owned⟩
    rw [shape]
    exact settling.trans (.request member (requests ▸ stored)
      (.refreshed now _ _ request unpublished unfinished))

theorem Owned.refreshRequest (owned : Owned env state.store) (now : Int) (requestId : String) :
    Owned env (WorkQueue.refreshRequest now requestId state).store :=
  (show Moves env (.clamped 1 1 1 1) {} [.refreshRequests] state _ from
    refreshRequest_moves (by simp)).owned owned

theorem refreshRequests_moves (member : .refreshRequests ∈ writers) :
    Moves env settings permits writers state (refreshRequests now state) :=
  .foldl (refreshRequest_moves member)

/-- The loop of `expire_claims`. -/
theorem expireTasks_moves (member : .expireClaims ∈ writers) :
    Moves env settings permits writers state (state.store.listTasks.foldl
      (fun current task => expireTask now task current) state) :=
  .listed (expireTask now) (expireTask_within member)
    (expireTask_leads now) (expireTask_kept now)

theorem expireClaims_moves (expires : .expireClaims ∈ writers)
    (refreshes : .refreshRequests ∈ writers) :
    Moves env settings permits writers state (expireClaims now state).2 :=
  (expireTasks_moves expires).trans (refreshRequests_moves refreshes)

theorem Owned.expireClaims (owned : Owned env state.store) (now : Int) :
    Owned env (WorkQueue.expireClaims now state).2.store :=
  (show Moves env (.clamped 1 1 1 1) {} [.expireClaims, .refreshRequests] state _ from
    expireClaims_moves (by simp) (by simp)).owned owned

section Views

variable {β : Type} (view : Store → β)
  (blindTask : ∀ store taskId record, view (store.apply (.task taskId record)) = view store)
  (blindRequest : ∀ store requestId record,
    view (store.apply (.request requestId record)) = view store)

include blindTask blindRequest

/-- Refreshing writes tasks and requests only. -/
theorem refreshRequests_view (now : Int) (state : QueueState) :
    view (refreshRequests now state).store = view state.store := by
  refine view_foldl view _ ?_ _ state
  intro current requestId
  rcases refreshRequest_cases now requestId current with
    same | ⟨_, _, _, _, _, ⟨rfl, _⟩ | ⟨rfl, _⟩, _, shape⟩
  · rw [same]
  · rw [shape, QueueState.perform_store, blindRequest]
  · rw [shape, QueueState.perform_store, blindRequest]
    exact view_foldl view _ (fun inner task => blindTask _ _ _) _ current

/-- Expiring claims writes tasks and requests only. -/
theorem expireClaims_view (now : Int) (state : QueueState) :
    view (expireClaims now state).2.store = view state.store := by
  refine (refreshRequests_view view blindTask blindRequest now _).trans ?_
  refine view_foldl view _ ?_ _ state
  intro current task
  unfold expireTask
  split
  · exact blindTask _ _ _
  · split
    · exact (blindTask _ _ _).trans (blindTask _ _ _)
    · rfl

end Views

/-! ## Creating, claiming and renewing -/

/-- A call finds an earlier request, is refused, or makes the writes of a creation. -/
theorem createRequest_cases (env : Environment) (settings : Settings) (call : CreateCall)
    (state : QueueState) :
    (createRequest env settings call state).2 = state ∨
      state.store.idempotency[env.hash call.identity]? = none ∧
        (createRequest env settings call state).2 = writeRequest env settings call state := by
  unfold createRequest
  split
  · exact .inl rfl
  · split
    · split <;> exact .inl rfl
    · next absent =>
      split
      · exact .inl rfl
      · exact .inr ⟨absent, rfl⟩

theorem createRequest_moves {call : CreateCall} (member : .createRequest ∈ writers)
    (permitted : permits.creates call) :
    Moves env settings permits writers state (createRequest env settings call state).2 := by
  rcases createRequest_cases env settings call state with same | ⟨absent, written⟩
  · rw [same]
    exact .refl
  · rw [written]
    exact ⟨writeRequest_within member call state,
      .of_update (.create call permitted absent)⟩

theorem claimTask_moves (call : ClaimCall) (member : .claimTask call ∈ writers) :
    Moves env settings permits writers state (claimTask env settings call state).2 := by
  unfold claimTask
  dsimp only
  split
  · exact .refl
  · split
    · exact .refl
    · next task stored =>
      split
      · exact .refl
      · next runnable =>
        split
        · exact .refl
        · by_cases waiting : task.state = .retryWait
          · simp only [waiting, if_true]
            refine (Moves.task member stored (.requeued call task waiting) (by simp)).trans ?_
            exact .task member (by simp [apply])
              (.claimed call _ _ rfl) (by simp)
          · simp only [waiting, if_false]
            have queued : task.state = .queued := by
              simpa [TaskState.runnable, waiting] using runnable
            exact .task member stored (.claimed call _ task queued) (by simp)

theorem renewTask_moves (member : .renewAgentClaims ∈ writers) :
    Moves env settings permits writers state (renewTask env agentId agentLeaseId now taskId state) := by
  unfold renewTask
  split
  · exact .refl
  · next task stored =>
    split
    · next live => exact .task member stored (.renewed agentId agentLeaseId now task live) (by simp)
    · exact .refl

theorem releaseClaim_moves (releases : .releaseClaim ∈ writers)
    (refreshes : .refreshRequests ∈ writers) (claimToken : String) :
    Moves env settings permits writers state (releaseClaim env taskId claimToken reason now state).2 := by
  unfold releaseClaim
  split
  · exact .refl
  · next task stored =>
    split
    · exact .refl
    · next held =>
      split
      · exact .refl
      · refine (Moves.task releases stored (.released now (env.safeError reason) task
          (by simpa using held)) (by simp)).trans ?_
        exact refreshRequests_moves refreshes

theorem reassignFencedClaims_moves (member : .reassignFencedClaims ∈ writers)
    (membership : Membership) :
    Moves env settings permits writers state (reassignFencedClaims generationId membership now state).2 := by
  have moved : Moves env settings permits writers state (state.store.listTasks.foldl
      (fun current task => reassignTask generationId membership now task current) state) := by
    refine .listed (reassignTask generationId membership now) ?_ ?_ ?_
    · intro current task
      exact .ite (fun _ => .perform member rfl) fun _ => .refl
    · intro current task stored
      unfold reassignTask
      split
      · next out =>
        have held : task.state = .claimed := by
          simp only [fencedOut, decide_eq_true_eq] at out
          exact out.1
        exact .task stored (.reassigned now task held) (by simp)
      · exact .refl
    · intro current task other apart
      unfold reassignTask
      split
      · simp [apply, getElem?_assign, apart]
      · rfl
  unfold reassignFencedClaims
  dsimp only
  split
  · exact moved
  · exact moved.trans (.neutral member rfl rfl)

/-- The loop of `fence_claims`. -/
theorem fenceTasks_moves (member : .fenceClaims ∈ writers) :
    Moves env settings permits writers state (state.store.listTasks.foldl
      (fun current task => fenceTask managerOwner managerFence now task current) state) := by
  refine .listed (fenceTask managerOwner managerFence now) ?_ ?_ ?_
  · intro current task
    exact .ite (fun _ => .perform member rfl) fun _ => .refl
  · intro current task stored
    unfold fenceTask
    split
    · next out =>
      have held : task.state = .claimed := by
        simp only [otherTerm, Bool.and_eq_true, decide_eq_true_eq] at out
        exact out.1
      exact .task stored (.fenced now task held) (by simp)
    · exact .refl
  · intro current task other apart
    unfold fenceTask
    split
    · simp [apply, getElem?_assign, apart]
    · rfl

theorem setDispatchStatus_moves (member : .setDispatchStatus ∈ writers) :
    Moves env settings permits writers state (setDispatchStatus taskId reason now state).2 := by
  unfold setDispatchStatus
  split
  · exact .refl
  · next task stored =>
    split
    · exact .refl
    · next changes =>
      have runnable : TaskState.runnable task.state = true := by
        simpa using (not_or.mp changes).1
      exact .task member stored (.dispatched now reason task runnable) (by simp)

/-! ## Cancelling and retrying -/

theorem cancelTask_moves (member : .cancelRequest ∈ writers) :
    Moves env settings permits writers state (cancelTask now reason taskId state) := by
  unfold cancelTask
  split
  · exact .refl
  · next task stored =>
    split
    · exact .refl
    · next unfinished =>
      exact .task member stored (.cancelled now reason task (by simpa using unfinished)) (by simp)

theorem cancelTask_requests :
    (cancelTask now reason taskId state).store.requests = state.store.requests := by
  unfold cancelTask
  split
  · rfl
  · split <;> rfl

theorem cancelTasks_moves (member : .cancelRequest ∈ writers) :
    Moves env settings permits writers state
      (taskIds.foldl (fun current taskId => cancelTask now reason taskId current) state) :=
  .foldl (cancelTask_moves member)

theorem cancelRequest_moves (member : .cancelRequest ∈ writers) :
    Moves env settings permits writers state (cancelRequest env requestId reason now state).2 := by
  unfold cancelRequest
  split
  · exact .refl
  · next request stored =>
    refine (cancelTasks_moves member).trans (.request member ?_ (.cancelled now _ request))
    rw [view_foldl requests]
    · exact stored
    · exact fun _ _ => cancelTask_requests

theorem deleteResults_moves {writer : Writer} (member : writer ∈ writers)
    (touched : ∀ key, writer.touches (.result key none) = true) :
    Moves env settings permits writers state (deleteResults writer taskId state) :=
  .foldl (.neutral member (touched _) rfl)

variable {β : Type}

/-- Deleting results leaves every view that does not read results as it was. -/
theorem deleteResults_view (view : Store → β)
    (blind : ∀ store key record, view (store.apply (.result key record)) = view store)
    (writer : Writer) (taskId : String) (state : QueueState) :
    view (deleteResults writer taskId state).store = view state.store := by
  refine view_foldl view _ ?_ _ state
  intro current key
  exact blind _ _ _

/-- The deadline that a retry gives to a request. -/
def retryDeadline (now : Int) (request : RequestRecord) : Int :=
  now + max 1000 (request.deadlineMs - request.createdAtMs)

/-- The record that a retry gives to a request. -/
def retriedRequest (now : Int) (request : RequestRecord) : RequestRecord :=
  { request with
    state := .queued
    error := ""
    deadlineMs := retryDeadline now request
    updatedAtMs := now }

/-- The writes of an admitted retry. -/
def writeRetry (taskId : String) (now : Int) (task : TaskRecord) (request : RequestRecord)
    (state : QueueState) : QueueState :=
  ((deleteResults .retryTask taskId state).perform .retryTask
    (.task taskId (some (retried now (retryDeadline now request) task)))).perform .retryTask
      (.request request.requestId (some (retriedRequest now request)))

/-- A retry is refused, or it resets a failed task of an unpublished request. -/
theorem retryTask_cases (taskId : String) (now : Int) (state : QueueState) :
    retryTask taskId now state = (false, state) ∨
      ∃ task request, state.store.tasks[taskId]? = some task ∧ task.state = .failed ∧
        state.store.requests[task.requestId]? = some request ∧ request.published = false ∧
        retryTask taskId now state = (true, writeRetry taskId now task request state) := by
  unfold retryTask
  split
  · exact .inl rfl
  · next task stored =>
    split
    · exact .inl rfl
    · next failed =>
      split
      · exact .inl rfl
      · next request requested =>
        split
        · exact .inl rfl
        · next unpublished =>
          exact .inr ⟨task, request, stored, by simpa using failed, requested,
            by simpa using unpublished, rfl⟩

theorem writeRetry_tasks (taskId : String) (now : Int) (task : TaskRecord) (request : RequestRecord)
    (state : QueueState) :
    (writeRetry taskId now task request state).store.tasks =
      assign state.store.tasks taskId (some (retried now (retryDeadline now request) task)) := by
  simp only [writeRetry, QueueState.perform_store, apply]
  rw [deleteResults_view tasks (fun _ _ _ => rfl)]

theorem writeRetry_requests (taskId : String) (now : Int) (task : TaskRecord)
    (request : RequestRecord) (state : QueueState) :
    (writeRetry taskId now task request state).store.requests =
      assign state.store.requests request.requestId (some (retriedRequest now request)) := by
  simp only [writeRetry, QueueState.perform_store, apply]
  rw [deleteResults_view requests (fun _ _ _ => rfl)]

theorem retryTask_moves (member : .retryTask ∈ writers) :
    Moves env settings permits writers state (retryTask taskId now state).2 := by
  rcases retryTask_cases taskId now state with
    refused | ⟨task, request, stored, failed, requested, unpublished, shape⟩
  · rw [refused]
    exact .refl
  · rw [shape]
    refine (deleteResults_moves member (fun _ => rfl)).trans
      ((Moves.task member ?_ (.retried now _ task failed) (by simp)).trans
        ⟨.perform member rfl, fun owned => ?_⟩)
    · rw [deleteResults_view tasks (fun _ _ _ => rfl)]
      exact stored
    · have found : (deleteResults .retryTask taskId state).store.requests[task.requestId]? =
          some request := by
        rw [deleteResults_view requests (fun _ _ _ => rfl)]
        exact requested
      rw [← (owned.requestKey _ _ found).1] at found
      exact Leads.of_update (.request _ _ request _ found
        (.retried now _ request unpublished)) owned

/-! ## Accepting a result -/

/-- Only a claimed record passes the claim checks. -/
theorem checkClaim_ok {task : TaskRecord} {result : TaskResult} {agentLeaseId : String}
    {claim : Claim} (passed : checkClaim env task result agentLeaseId = .ok claim) :
    task.claim = some claim ∧ task.state = .claimed ∧ claim.claimToken = result.claimToken ∧
      claim.agentId = result.agentId ∧ result.attempt = task.attempt ∧
      claim.agentLeaseHash = env.hash agentLeaseId ∧
      claim.membershipVersion = result.membershipVersion ∧
      claim.workerFence = result.workerFence := by
  unfold checkClaim at passed
  cases entry : task.claim with
  | none =>
    rw [entry] at passed
    dsimp only at passed
    split at passed <;> cases passed
  | some stored =>
    rw [entry] at passed
    dsimp only at passed
    split at passed
    · cases passed
    · next live =>
      split at passed
      · cases passed
      · next agent =>
        split at passed
        · cases passed
        · next attempt =>
          split at passed
          · cases passed
          · next lease =>
            split at passed
            · cases passed
            · next worker =>
              cases passed
              simp only [not_or, ne_eq, not_not] at live agent attempt lease worker
              exact ⟨rfl, live.1, live.2, agent, attempt, lease, worker.1, worker.2⟩

theorem writeAcceptance_moves (accepts : .acceptResult ∈ writers)
    (refreshes : .refreshRequests ∈ writers) (claim : Claim) (settled : TaskRecord)
    (saved : SavedResult) (stored : state.store.tasks[taskId]? = some task)
    (move : TaskMove env .acceptResult (some task) (some settled)) :
    Moves env settings permits writers state (writeAcceptance now taskId claim settled saved state) :=
  (Moves.task accepts stored move (by simp)).trans
    ((Moves.neutral accepts rfl rfl).trans (refreshRequests_moves refreshes))

variable {store : Store}

/-- The record that an admitted report leads to is reached by a single move. -/
theorem settleResult_move {now : Int} {result : TaskResult} {claim : Claim}
    {task settled : TaskRecord} {saved : SavedResult} (held : task.state = .claimed)
    (passed : settleResult env settings store now result claim task = .ok (settled, saved)) :
    TaskMove env .acceptResult (some task) (some settled) := by
  unfold settleResult at passed
  split at passed
  · split at passed
    · cases passed
    · split at passed
      · cases passed
      · cases passed
        exact .succeeded now result claim task held
  · cases passed
    exact .reportedFailure settings now result task held

/-- A report leaves the queue as it is, or as expiry leaves it, or it cancels the
request of a claimed task, or it settles one. -/
theorem acceptResult_cases (result : TaskResult) (agentLeaseId : String) (now cancelNow : Int)
    (state : QueueState) :
    let after := (acceptResult env settings result agentLeaseId now cancelNow state).2
    let expired := (expireClaims now state).2
    after = state ∨ after = expired ∨
      ∃ task, expired.store.tasks[result.taskId]? = some task ∧ task.state = .claimed ∧
        (after = (cancelRequest env task.requestId "generation_fenced" cancelNow expired).2 ∨
          ∃ claim settled saved, TaskMove env .acceptResult (some task) (some settled) ∧
            after = writeAcceptance now result.taskId claim settled saved expired) := by
  unfold acceptResult
  dsimp only
  split
  · exact .inl rfl
  · split
    · exact .inr (.inl rfl)
    · next task stored =>
      split
      · exact .inr (.inl rfl)
      · split
        · exact .inr (.inl rfl)
        · next claim passed =>
          have held := (checkClaim_ok passed).2.1
          unfold acceptClaimed
          split
          · exact .inr (.inl rfl)
          · split
            · exact .inr (.inl rfl)
            · split
              · exact .inr (.inl rfl)
              · split
                · exact .inr (.inr ⟨task, stored, held, .inl rfl⟩)
                · unfold settleClaimed
                  split
                  · exact .inr (.inl rfl)
                  · next settled saved reached =>
                    exact .inr (.inr ⟨task, stored, held, .inr ⟨claim, settled, saved,
                      settleResult_move held reached, rfl⟩⟩)

theorem acceptResult_moves (accepts : .acceptResult ∈ writers)
    (refreshes : .refreshRequests ∈ writers) (cancels : .cancelRequest ∈ writers)
    (expires : .expireClaims ∈ writers) (result : TaskResult) (cancelNow : Int) :
    Moves env settings permits writers state
      (acceptResult env settings result agentLeaseId now cancelNow state).2 := by
  have expired : Moves env settings permits writers state (expireClaims now state).2 :=
    expireClaims_moves expires refreshes
  rcases @acceptResult_cases env settings result agentLeaseId now cancelNow state with
    same | same | ⟨task, stored, held, same | ⟨claim, settled, saved, move, same⟩⟩
  · rw [same]
    exact .refl
  · rw [same]
    exact expired
  · rw [same]
    exact expired.trans (cancelRequest_moves cancels)
  · rw [same]
    exact expired.trans
      (writeAcceptance_moves accepts refreshes claim settled saved stored move)

/-! ## Recovery -/

theorem deleteTasks_view (view : Store → β)
    (blind : ∀ store taskId record, view (store.apply (.task taskId record)) = view store)
    (writer : Writer) (taskIds : List String) (state : QueueState) :
    view (deleteTasks writer taskIds state).store = view state.store := by
  refine view_foldl view _ ?_ _ state
  intro current taskId
  exact blind _ _ _

/-- What remains after a loop that removes the listed tasks is not listed and
was there before. -/
theorem stored_after_removal (body : QueueState → String → QueueState)
    (removes : ∀ state taskId,
      (body state taskId).store.tasks = assign state.store.tasks taskId none)
    (taskIds : List String) (state : QueueState) (taskId : String) (task : TaskRecord)
    (stored : (taskIds.foldl body state).store.tasks[taskId]? = some task) :
    taskId ∉ taskIds ∧ state.store.tasks[taskId]? = some task := by
  rcases entries_after_writes tasks body id (fun _ => none) removes taskIds state taskId with
    ⟨_, _, _, found⟩ | ⟨others, found⟩
  · rw [found] at stored
    cases stored
  · exact ⟨fun inside => others taskId inside rfl, found.symm.trans stored⟩

variable {requestId : String}

/-- No task of a request survives the deletion of the tasks the request lists. -/
theorem Owned.childless_of_deleted (owned : Owned env state.store)
    {request : RequestRecord}
    (requested : state.store.requests[requestId]? = some request)
    (deleted : ∀ (taskId : String) (task : TaskRecord), store.tasks[taskId]? = some task →
      taskId ∉ request.taskIds ∧ state.store.tasks[taskId]? = some task) (taskId : String)
    (task : TaskRecord) (stored : store.tasks[taskId]? = some task) :
    task.requestId ≠ requestId := by
  intro same
  obtain ⟨outside, earlier⟩ := deleted taskId task stored
  obtain ⟨owner, found, inside⟩ := owned.taskListed taskId task earlier
  rw [same, requested] at found
  cases found
  exact outside inside

section

variable (clock : RecoverClock)
include clock

theorem recoverRequest_leads (state : QueueState) (request : RequestRecord)
    (stored : state.store.requests[request.requestId]? = some request) :
    Leads env settings permits state (recoverRequest clock request state) := by
  intro owned
  have named := (owned.requestKey _ _ stored).2
  unfold recoverRequest
  split
  · next ready =>
    obtain ⟨present, found, leads⟩ : ∃ present,
        (markMissing clock request state).store.requests[request.requestId]? = some present ∧
          Leads env settings permits state (markMissing clock request state) := by
      unfold markMissing
      split
      · exact ⟨_, getElem?_assign_self _ _ _,
          .of_update (.request _ _ request _ stored (.missing _ request ready))⟩
      · exact ⟨request, stored, .refl⟩
    exact (leads.trans (.of_update (.remember _ _ _ present found named))) owned
  · rw [named]
    refine ((Leads.foldl (.delete (by simp))).trans (.of_update
      (.forget .recover request.requestId _ _ ?_ (.inl ⟨rfl, rfl⟩)))) owned
    exact owned.childless_of_deleted stored (stored_after_removal _ (fun _ _ => rfl) _ state)

theorem recoverTask_leads (kept : List String) (state : QueueState) (task : TaskRecord)
    (stored : state.store.tasks[task.taskId]? = some task) :
    Leads env settings permits state (recoverTask clock kept task state) := by
  unfold recoverTask
  split
  · exact (deleteResults_moves (mem_singleton.mpr rfl) (fun _ => rfl)).leads.trans
      (.delete (by simp))
  · split
    · next expired => exact .task stored (.recovered clock task expired) (by simp)
    · exact .refl

theorem recoverTask_kept (kept : List String) (state : QueueState) (task : TaskRecord)
    (other : String) (apart : task.taskId ≠ other) :
    (recoverTask clock kept task state).store.tasks[other]? = state.store.tasks[other]? := by
  unfold recoverTask
  split
  · simp only [QueueState.perform_store, apply, getElem?_assign, if_neg apart]
    rw [deleteResults_view tasks (fun _ _ _ => rfl)]
  · split
    · simp [apply, getElem?_assign, apart]
    · rfl

/-- The loop of `recover` over the requests. -/
theorem recoverRequests_leads :
    Leads env settings permits state ((listing state.store.requests).foldl
      (fun current request => recoverRequest clock request current) state) := by
  intro owned
  refine Records.walk
    (fun current request => current.store.requests[request.requestId]? = some request)
    (recoverRequest clock) (Leads env settings permits) .refl .trans
    (fun first second => first.requestId ≠ second.requestId)
    (recoverRequest_leads clock) ?_ _ state ?_ ?_ owned
  · intro current request other apart present
    refine .trans ?_ present
    unfold recoverRequest
    split
    · unfold markMissing
      split
      · simp [apply, getElem?_assign, apart]
      · simp [apply]
    · simp only [QueueState.perform_store, apply, getElem?_assign, if_neg apart]
      rw [deleteTasks_view requests (fun _ _ _ => rfl)]
  · intro request member
    obtain ⟨key, stored⟩ := (mem_listing _ _).mp member
    rw [(owned.requestKey key request stored).1]
    exact stored
  · exact listing_pairwise _ _ fun key request stored => (owned.requestKey key request stored).1

end

theorem recoverRecords_moves (member : .recover ∈ writers) (clock : RecoverClock) :
    Moves env settings permits writers state (recoverRecords clock state) := by
  refine .trans ⟨.foldl ?_, recoverRequests_leads clock⟩
    (.listed (recoverTask clock _) ?_ (recoverTask_leads clock _) (recoverTask_kept clock _))
  · intro current request
    unfold recoverRequest
    refine .ite (fun _ => ?_) fun _ => ?_
    · exact (Within.ite (fun _ => .perform member rfl)
        fun _ => .refl).trans (.perform member rfl)
    · exact ((Within.foldl (.perform member rfl)).trans
        (.perform member rfl)).trans (.perform member rfl)
  · intro current task
    unfold recoverTask
    refine .ite (fun _ => ?_) fun _ => .ite (fun _ => ?_) fun _ => .refl
    · exact (Within.foldl (.perform member rfl)).trans
        (.perform member rfl)
    · exact .perform member rfl

theorem Owned.recoverRecords (owned : Owned env state.store) (clock : RecoverClock) :
    Owned env (WorkQueue.recoverRecords clock state).store :=
  (show Moves env (.clamped 1 1 1 1) {} [.recover] state _ from
    recoverRecords_moves (by simp) clock).owned owned

/-! ## Pruning and publication -/

/-- The counter of `prune_staging` does not influence its deletions. -/
theorem pruneStaging_state (env : Environment) (generationId : String)
    (outputKeys keep : List String) (state : QueueState) :
    (pruneStaging env generationId outputKeys keep state).2 =
      (stagingRanges env generationId outputKeys).foldl
        (fun current range => pruneRange env generationId keep range current) state := by
  have counted : ∀ (ranges : List String) (start : Nat × QueueState),
      (ranges.foldl (fun current range =>
        (current.1 + ((current.2.store.objectsUnder range).filter (· ∉ keep)).length,
          pruneRange env generationId keep range current.2)) start).2 =
        ranges.foldl (fun current range => pruneRange env generationId keep range current)
          start.2 := by
    intro ranges
    induction ranges with
    | nil => exact fun start => rfl
    | cons range rest ih => exact fun start => ih _
  exact counted _ (0, state)

theorem pruneStaging_moves (member : .pruneStaging ∈ writers) :
    Moves env settings permits writers state
      (pruneStaging env generationId outputKeys keep state).2 := by
  rw [pruneStaging_state]
  exact .foldl
    (.foldl ((Moves.neutral member rfl rfl).trans (.neutral member rfl rfl)))

/-- Pruning staged objects leaves every view that does not read objects as it was. -/
theorem pruneStaging_view (view : Store → β)
    (blind : ∀ store key contents, view (store.apply (.object key contents)) = view store)
    (env : Environment) (generationId : String) (outputKeys keep : List String)
    (state : QueueState) :
    view (pruneStaging env generationId outputKeys keep state).2.store = view state.store := by
  rw [pruneStaging_state]
  refine view_foldl view _ ?_ _ state
  intro current range
  refine view_foldl view _ ?_ _ current
  intro inner key
  exact (blind _ _ _).trans (blind _ _ _)

/-- The staged objects of a task are removed before its records, or not at all. -/
theorem pruneTask_cases (env : Environment) (request : RequestRecord) (taskId : String)
    (state : QueueState) :
    ∃ swept, (swept = state ∨ ∃ generationId outputKeys keep,
        swept = (pruneStaging env generationId outputKeys keep state).2) ∧
      pruneTask env request taskId state =
        (deleteResults .pruneTerminal taskId swept).perform .pruneTerminal (.task taskId none) := by
  refine ⟨_, ?_, rfl⟩
  split
  · exact .inl rfl
  · split
    · exact .inr ⟨_, _, _, rfl⟩
    · exact .inl rfl

theorem pruneTask_moves (sweeps : .pruneStaging ∈ writers) (prunes : .pruneTerminal ∈ writers) :
    Moves env settings permits writers state (pruneTask env request taskId state) := by
  obtain ⟨swept, origin, shape⟩ := pruneTask_cases env request taskId state
  have sweeping : Moves env settings permits writers state swept := by
    rcases origin with rfl | ⟨generationId, outputKeys, keep, rfl⟩
    · exact .refl
    · exact pruneStaging_moves sweeps
  rw [shape]
  exact sweeping.trans ((deleteResults_moves prunes (fun _ => rfl)).trans
    ⟨.perform prunes rfl, .delete (by simp)⟩)

/-- Pruning a task removes its record and touches neither requests nor the
idempotency records. -/
theorem pruneTask_view (view : Store → β)
    (blindObject : ∀ store key contents, view (store.apply (.object key contents)) = view store)
    (blindResult : ∀ store key record, view (store.apply (.result key record)) = view store)
    (env : Environment) (request : RequestRecord) (taskId : String) (state : QueueState) :
    ∃ swept : QueueState, view swept.store = view state.store ∧
      pruneTask env request taskId state = swept.perform .pruneTerminal (.task taskId none) := by
  obtain ⟨swept, origin, shape⟩ := pruneTask_cases env request taskId state
  refine ⟨_, ?_, shape⟩
  rw [deleteResults_view view blindResult]
  rcases origin with rfl | ⟨generationId, outputKeys, keep, rfl⟩
  · rfl
  · exact pruneStaging_view view blindObject env generationId outputKeys keep state

theorem pruneTask_tasks (env : Environment) (request : RequestRecord) (state : QueueState)
    (taskId : String) :
    (pruneTask env request taskId state).store.tasks = assign state.store.tasks taskId none := by
  obtain ⟨swept, same, shape⟩ := pruneTask_view tasks (fun _ _ _ => rfl) (fun _ _ _ => rfl)
    env request taskId state
  rw [shape, QueueState.perform_store, apply, same]

theorem pruneRequest_moves (sweeps : .pruneStaging ∈ writers) (prunes : .pruneTerminal ∈ writers)
    (cutoff : Int) :
    Moves env settings permits writers state (pruneRequest env cutoff requestId state) := by
  unfold pruneRequest
  split
  · exact .refl
  · next request stored =>
    split
    · have pruned : Moves env settings permits writers state (request.taskIds.foldl
          (fun current taskId => pruneTask env request taskId current) state) :=
        .foldl (pruneTask_moves sweeps prunes)
      refine ⟨(pruned.within.trans (.perform prunes rfl)).trans
        (.perform prunes rfl), fun owned => ?_⟩
      rw [(owned.requestKey _ _ stored).2]
      refine (pruned.leads.trans (.of_update
        (.forget .pruneTerminal requestId _ _ ?_ (.inr ⟨rfl, rfl⟩)))) owned
      exact owned.childless_of_deleted stored
        (stored_after_removal _ (pruneTask_tasks env request) _ state)
    · exact .refl

/-- A publishable request is stored, has succeeded and has the manifest's identity. -/
theorem publishableRequest_ok {manifest : SnapshotManifest}
    {request : RequestRecord} (passed : publishableRequest requestId manifest store = .ok request) :
    store.requests[requestId]? = some request ∧ request.state = .succeeded ∧
      manifestMatches requestId request manifest = true := by
  unfold publishableRequest at passed
  split at passed
  · cases passed
  · next found stored =>
    split at passed
    · cases passed
    · next succeeded =>
      split at passed
      · cases passed
      · next identity =>
        cases passed
        exact ⟨stored, by simpa using succeeded, by simpa using identity⟩

/-- A prepared publication was prepared from a publishable request. -/
theorem preparePublication_ok {manifest : SnapshotManifest} {now : Int}
    {publication : Publication}
    (prepared : preparePublication env requestId manifest now store = .ok publication) :
    ∃ request guard datasetId, publishableRequest requestId manifest store = .ok request ∧
      publishableGeneration env manifest now store = .ok guard ∧
      checkOutputs env store request manifest = .ok datasetId ∧
      publication = publicationOf request manifest now guard datasetId := by
  unfold preparePublication at prepared
  split at prepared
  · cases prepared
  · next request publishable =>
    split at prepared
    · cases prepared
    · next guard allowed =>
      split at prepared
      · cases prepared
      · next datasetId checked =>
        cases prepared
        exact ⟨request, guard, datasetId, publishable, allowed, checked, rfl⟩

theorem publishSnapshot_moves (member : .publishSnapshot ∈ writers) (manifest : SnapshotManifest) :
    Moves env settings permits writers state (publishSnapshot env requestId manifest now state).2 := by
  unfold publishSnapshot
  split
  · exact .refl
  · next publication prepared =>
    obtain ⟨request, guard, datasetId, publishable, _, _, rfl⟩ := preparePublication_ok prepared
    obtain ⟨stored, succeeded, _⟩ := publishableRequest_ok publishable
    exact (Moves.neutral member rfl rfl).trans
      (.request member stored (.published now _ request succeeded))

/-! ## Runs -/

/-- An operation creates and describes only what is permitted. -/
def Operation.Permitted (permits : Permits) : Operation → Prop
  | .createRequest call => permits.creates call
  | .changeMetadata key object => permits.describes key object
  | _ => True

/-- Every operation is a finite sequence of updates, and writes through the functions listed
for it. -/
theorem execute_moves (state : QueueState) (operation : Operation)
    (permitted : operation.Permitted permits) :
    Moves env settings permits operation.writers state (execute env settings state operation) := by
  cases operation with
  | createRequest call => exact createRequest_moves (by simp) permitted
  | claimTask call => exact claimTask_moves call (by simp)
  | renewAgentClaims => exact .foldl (renewTask_moves (by simp))
  | releaseClaim =>
    exact releaseClaim_moves (by simp) (by simp) _
  | acceptResult =>
    exact acceptResult_moves (by simp) (by simp)
      (by simp) (by simp) _ _
  | expireClaims =>
    exact expireClaims_moves (by simp) (by simp)
  | reassignFencedClaims =>
    exact reassignFencedClaims_moves (by simp) _
  | fenceClaims =>
    simp only [execute, fenceClaims]
    split
    · exact fenceTasks_moves (by simp)
    · exact (fenceTasks_moves (by simp)).trans (refreshRequests_moves (by simp))
  | cancelRequest => exact cancelRequest_moves (by simp)
  | retryTask => exact retryTask_moves (by simp)
  | recoverRecords => exact recoverRecords_moves (by simp) _
  | recover clock =>
    exact (recoverRecords_moves (by simp) clock).trans
      (expireClaims_moves (by simp) (by simp))
  | setDispatchStatus => exact setDispatchStatus_moves (by simp)
  | pruneTerminal =>
    exact .foldl (pruneRequest_moves (by simp) (by simp) _)
  | pruneStaging => exact pruneStaging_moves (by simp)
  | publishSnapshot => exact publishSnapshot_moves (by simp) _
  | changeMetadata key object =>
    exact ⟨.perform (by simp) rfl,
      .of_update (.metadata .outside key object permitted)⟩
  | changeObject | changeMembership | changeCoordinator =>
    exact .neutral (by simp) rfl rfl

/-- An empty store owns its tasks trivially. -/
theorem owned_empty : Owned env ({} : Store) where
  taskKey _ _ stored := by simp at stored
  taskName _ _ stored := by simp at stored
  taskListed _ _ stored := by simp at stored
  requestKey _ _ stored := by simp at stored
  requestName _ _ stored := by simp at stored
  remembered _ _ stored := by simp at stored

/-- Every run from the empty store is a finite sequence of updates. -/
theorem run_updates (operations : List Operation)
    (permitted : ∀ operation ∈ operations, operation.Permitted permits) :
    Updates env settings permits {} (run env settings operations) := by
  have leads : Leads env settings permits {} (run env settings operations) :=
    List.foldlRecOn operations _ .refl fun state earlier operation member =>
      earlier.trans (execute_moves state operation (permitted operation member)).leads
  exact leads owned_empty

/-- Every operation is permitted when nothing is restricted. -/
theorem Operation.permitted_all (operation : Operation) : operation.Permitted {} := by
  cases operation <;> trivial

/-- Tasks are owned and requests remembered after every run. -/
theorem run_owned (operations : List Operation) :
    Owned env (run env settings operations).store :=
  (run_updates operations fun operation _ => operation.permitted_all).owned owned_empty

end Operations

end ShortcutProxy.WorkQueue
