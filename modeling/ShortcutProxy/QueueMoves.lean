import ShortcutProxy.QueueLifecycle

/-!
# What one write of the queue can do

Every durable write that a queue operation makes to a task or request record is
one of finitely many moves. A `TaskMove` names the write site, the record it
found and the record it left, together with the tests the source makes before
writing. A `RequestMove` does the same for requests.

An `Update` is a move of the store together with what it leaves alone. The
ownership of tasks by requests and the correspondence between requests and
idempotency records hold before and after each update, although they are broken
inside the two composite ones: creating a request, and forgetting one whose
tasks are gone.
-/
namespace ShortcutProxy.WorkQueue

open Contract Generation Records TableMetadata QueueState

/-- The writes of task records, one constructor for each place in the source
that makes one. -/
inductive TaskMove (env : Environment) : Writer → Option TaskRecord → Option TaskRecord → Prop
  | deleted (writer : Writer) (old : Option TaskRecord) : TaskMove env writer old none
  | created (old : Option TaskRecord) (record : TaskRecord)
      (unclaimed : record.claim = none) (queued : record.state = .queued)
      (fresh : ∀ prior, old = some prior → prior.state = .queued) :
      TaskMove env .createRequest old (some record)
  | deadlineExpired (now : Int) (task : TaskRecord) (due : task.waitingPastDeadline now = true) :
      TaskMove env .expireClaims (some task) (some (deadlineExpired now task))
  | claimExpired (now : Int) (task : TaskRecord) (due : task.claimLapsed now = true) :
      TaskMove env .expireClaims (some task) (some (claimExpired now task))
  | expirySettled (target : TaskState) (task : TaskRecord) (expired : task.state = .expired)
      (reopened : target = .failed ∨ target = .queued) :
      TaskMove env .expireClaims (some task) (some (expirySettled target task))
  | siblingCancelled (now : Int) (task : TaskRecord) (unfinished : task.state.terminal = false) :
      TaskMove env .refreshRequests (some task) (some (siblingCancelled now task))
  | siblingRepeated (now : Int) (task : TaskRecord) :
      TaskMove env .refreshRequests (some (siblingCancelled now task))
        (some (siblingCancelled now task))
  | requeued (call : ClaimCall) (task : TaskRecord) (waiting : task.state = .retryWait) :
      TaskMove env (.claimTask call) (some task) (some (requeued call.nowMs task))
  | claimed (call : ClaimCall) (duration : Int) (task : TaskRecord)
      (queued : task.state = .queued) :
      TaskMove env (.claimTask call) (some task) (some (claimed env call duration task))
  | renewed (agentId agentLeaseId : String) (now : Int) (task : TaskRecord)
      (live : renewable env agentId agentLeaseId now task = true) :
      TaskMove env .renewAgentClaims (some task) (some (renewed now task))
  | released (now : Int) (reason : String) (task : TaskRecord) (held : task.state = .claimed) :
      TaskMove env .releaseClaim (some task) (some (returned now reason task))
  | reassigned (now : Int) (task : TaskRecord) (held : task.state = .claimed) :
      TaskMove env .reassignFencedClaims (some task) (some (reassigned now task))
  | fenced (now : Int) (task : TaskRecord) (held : task.state = .claimed) :
      TaskMove env .fenceClaims (some task) (some (returned now "manager_fenced" task))
  | dispatched (now : Int) (reason : String) (task : TaskRecord)
      (runnable : TaskState.runnable task.state = true) :
      TaskMove env .setDispatchStatus (some task) (some (dispatched now reason task))
  | cancelled (now : Int) (reason : String) (task : TaskRecord)
      (unfinished : task.state.terminal = false) :
      TaskMove env .cancelRequest (some task) (some (cancelled now reason task))
  | retried (now deadline : Int) (task : TaskRecord) (failed : task.state = .failed) :
      TaskMove env .retryTask (some task) (some (retried now deadline task))
  | succeeded (now : Int) (result : TaskResult) (claim : Claim) (task : TaskRecord)
      (held : task.state = .claimed) :
      TaskMove env .acceptResult (some task) (some (succeeded now result claim task))
  | reportedFailure (settings : Settings) (now : Int) (result : TaskResult) (task : TaskRecord)
      (held : task.state = .claimed) :
      TaskMove env .acceptResult (some task) (some (reportedFailure env settings now result task))
  | recovered (clock : RecoverClock) (task : TaskRecord) (expired : task.state = .expired) :
      TaskMove env .recover (some task) (some (recovered clock task))

/-- The part of a task record that no write after its creation changes. -/
def TaskRecord.identity (task : TaskRecord) : String × String × Int × String × String :=
  (task.taskId, task.requestId, task.task.splitIndex, task.task.outputKey, task.task.generationId)

variable {writer : Writer}

/-- A move between records keeps the identity of the task. -/
theorem TaskMove.identity_eq {env : Environment} {old new : TaskRecord}
    (move : TaskMove env writer (some old) (some new)) (other : writer ≠ .createRequest) :
    new.identity = old.identity := by
  cases move <;> first | exact absurd rfl other | rfl

/-- The writes of request records. -/
inductive RequestMove : Writer → RequestRecord → RequestRecord → Prop
  | refreshed (now : Int) (state : TaskState) (error : String) (request : RequestRecord)
      (unpublished : request.published = false) (unfinished : request.state.terminal = false) :
      RequestMove .refreshRequests request
        { request with state := state, error := error, updatedAtMs := now }
  | cancelled (now : Int) (reason : String) (request : RequestRecord) :
      RequestMove .cancelRequest request
        { request with state := .cancelled, error := reason, updatedAtMs := now }
  | retried (now deadline : Int) (request : RequestRecord)
      (unpublished : request.published = false) :
      RequestMove .retryTask request
        { request with state := .queued, error := "", deadlineMs := deadline, updatedAtMs := now }
  | missing (now : Int) (request : RequestRecord) (ready : request.ready = true) :
      RequestMove .recover request
        { request with state := .failed, error := "missing_task_record", updatedAtMs := now }
  | published (now : Int) (key : Versioned) (request : RequestRecord)
      (succeeded : request.state = .succeeded) :
      RequestMove .publishSnapshot request
        { request with published := true, snapshotKey := some key, updatedAtMs := now }

/-- The part of a request record that no write after its creation changes. -/
def RequestRecord.identity (request : RequestRecord) : String × String × List String :=
  (request.requestId, request.idempotencyKey, request.taskIds)

variable {old new : RequestRecord}

theorem RequestMove.identity_eq (move : RequestMove writer old new) :
    new.identity = old.identity := by
  cases move <;> rfl

theorem RequestMove.table_eq (move : RequestMove writer old new) :
    new.table = old.table := by
  cases move <;> rfl

/-- Writes outside the namespaces that carry the life cycle. -/
def Write.isNeutral : Write → Bool
  | .result _ _ | .snapshot _ _ | .membership _ _ | .object _ _ | .coordinator _ => true
  | .request _ _ | .task _ _ | .idempotency _ _ | .metadata _ _ => false

/-- What the surroundings of the queue may do: which requests they create and
which metadata objects they write. -/
structure Permits where
  creates : CreateCall → Prop := fun _ => True
  describes : String → MetadataObject → Prop := fun _ _ => True

/-- One update of the queue within what is permitted. -/
inductive Update (env : Environment) (settings : Settings) (permits : Permits)
    (state : QueueState) : QueueState → Prop
  | task (writer : Writer) (taskId : String) (record : Option TaskRecord)
      (move : TaskMove env writer state.store.tasks[taskId]? record)
      (present : writer ≠ .createRequest) :
      Update env settings permits state (state.perform writer (.task taskId record))
  | request (writer : Writer) (requestId : String) (old new : RequestRecord)
      (stored : state.store.requests[requestId]? = some old) (move : RequestMove writer old new) :
      Update env settings permits state (state.perform writer (.request requestId (some new)))
  | remember (writer : Writer) (key requestId : String) (request : RequestRecord)
      (stored : state.store.requests[requestId]? = some request) (same : key = requestId) :
      Update env settings permits state (state.perform writer (.idempotency key (some requestId)))
  | create (call : CreateCall) (permitted : permits.creates call)
      (absent : state.store.idempotency[env.hash call.identity]? = none) :
      Update env settings permits state (writeRequest env settings call state)
  | forget (writer : Writer) (requestId : String) (first second : Write)
      (childless : ∀ (taskId : String) (task : TaskRecord),
        state.store.tasks[taskId]? = some task → task.requestId ≠ requestId)
      (both : (first = .request requestId none ∧ second = .idempotency requestId none) ∨
        (first = .idempotency requestId none ∧ second = .request requestId none)) :
      Update env settings permits state ((state.perform writer first).perform writer second)
  | metadata (writer : Writer) (key : String) (object : MetadataObject)
      (permitted : permits.describes key object) :
      Update env settings permits state (state.perform writer (.metadata key object))
  | neutral (writer : Writer) (write : Write) (neutral : write.isNeutral = true) :
      Update env settings permits state (state.perform writer write)

variable (env : Environment)

/-- Tasks belong to stored requests, and requests are remembered. -/
structure Owned (store : Store) : Prop where
  taskKey : ∀ (taskId : String) (task : TaskRecord),
    store.tasks[taskId]? = some task → task.taskId = taskId
  taskName : ∀ (taskId : String) (task : TaskRecord),
    store.tasks[taskId]? = some task → taskId = taskIdOf env task.requestId task.task
  taskListed : ∀ (taskId : String) (task : TaskRecord),
    store.tasks[taskId]? = some task →
      ∃ request, store.requests[task.requestId]? = some request ∧ taskId ∈ request.taskIds
  requestKey : ∀ (requestId : String) (request : RequestRecord),
    store.requests[requestId]? = some request →
      request.requestId = requestId ∧ request.idempotencyKey = requestId
  requestName : ∀ (requestId : String) (request : RequestRecord),
    store.requests[requestId]? = some request → ∃ text, requestId = env.hash text
  remembered : ∀ (requestId : String) (request : RequestRecord),
    store.requests[requestId]? = some request →
      store.idempotency[requestId]? = some requestId

/-- A move to a record, other than a creation, starts from a record of the same
identity. -/
theorem TaskMove.origin {env : Environment} {old : Option TaskRecord} {new : TaskRecord}
    (move : TaskMove env writer old (some new)) (other : writer ≠ .createRequest) :
    ∃ prior, old = some prior ∧ new.identity = prior.identity := by
  cases old with
  | none => cases move; exact absurd rfl other
  | some prior => exact ⟨prior, rfl, move.identity_eq other⟩

/-! ## The composite writes -/

/-- A task identifier determines the request and the split of its task. -/
theorem taskIdOf_inj {env : Environment} {first second : String} {left right : MaterializeTask}
    (firstFree : '|' ∉ first.toList) (secondFree : '|' ∉ second.toList)
    (same : taskIdOf env first left = taskIdOf env second right) :
    first = second ∧ left.splitIndex = right.splitIndex ∧ left.outputKey = right.outputKey := by
  have digests := (Digest.hash_inj env.digest _ _).mp same
  simp only [String.append_assoc] at digests
  obtain ⟨sameRequest, work⟩ := Digest.append_bar_inj firstFree secondFree digests
  obtain ⟨sameIndex, sameOutput⟩ := Digest.append_bar_inj (Digest.bar_not_mem_toString _)
    (Digest.bar_not_mem_toString _) work
  exact ⟨sameRequest, Int.repr_inj.mp sameIndex, sameOutput⟩

variable {α : Type}

/-- A namespace after a loop whose iterations each write one entry of it. -/
theorem entries_after_writes {κ υ : Type} [Ord κ] [Std.TransOrd κ] [Std.LawfulEqOrd κ]
    [DecidableEq κ] (view : Store → Table κ υ) (body : QueueState → α → QueueState) (key : α → κ)
    (value : α → Option υ)
    (writes : ∀ state item,
      view (body state item).store = assign (view state.store) (key item) (value item))
    (items : List α) (state : QueueState) (other : κ) :
    (∃ item ∈ items, key item = other ∧
        (view (items.foldl body state).store)[other]? = value item) ∨
      ((∀ item ∈ items, key item ≠ other) ∧
        (view (items.foldl body state).store)[other]? = (view state.store)[other]?) := by
  induction items generalizing state with
  | nil => exact .inr ⟨by simp, rfl⟩
  | cons first rest ih =>
    rcases ih (body state first) with ⟨item, inside, named, found⟩ | ⟨others, found⟩
    · exact .inl ⟨item, List.mem_cons_of_mem _ inside, named, found⟩
    · rw [writes] at found
      by_cases same : key first = other
      · refine .inl ⟨first, List.mem_cons_self, same, found.trans ?_⟩
        rw [← same]
        exact getElem?_assign_self _ _ _
      · exact .inr ⟨List.forall_mem_cons.mpr ⟨same, others⟩,
          found.trans (getElem?_assign_of_ne _ _ same)⟩

/-- A loop whose iterations never touch a view of the store leaves the view as it was. -/
theorem view_foldl_mem {β : Type} (view : Store → β) (body : QueueState → α → QueueState)
    (items : List α)
    (each : ∀ item ∈ items, ∀ state, view (body state item).store = view state.store)
    (state : QueueState) : view (items.foldl body state).store = view state.store := by
  induction items generalizing state with
  | nil => rfl
  | cons item rest ih =>
    rw [List.foldl_cons, ih fun other inside =>
      each other (List.mem_cons_of_mem _ inside), each item List.mem_cons_self]

theorem view_foldl {β : Type} (view : Store → β) (body : QueueState → α → QueueState)
    (each : ∀ state item, view (body state item).store = view state.store) (items : List α)
    (state : QueueState) : view (items.foldl body state).store = view state.store :=
  view_foldl_mem view body items (fun item _ current => each current item) state

/-- Writing tasks leaves a view of the rest of the store as it was. -/
theorem view_after_puts (view : Store → α)
    (blind : ∀ store taskId record, view (store.apply (.task taskId record)) = view store)
    (writer : Writer) (records : List TaskRecord) (state : QueueState) :
    view (records.foldl (fun current record => current.perform writer
      (.task record.taskId (some record))) state).store = view state.store :=
  view_foldl view _ (fun _ _ => blind _ _ _) records state

/-- The requests after a creation. -/
theorem writeRequest_requests (settings : Settings) (call : CreateCall) (state : QueueState)
    (requestId : String) :
    (writeRequest env settings call state).store.requests[requestId]? =
      if env.hash call.identity = requestId then
        some { createdRequest env call with ready := true }
      else state.store.requests[requestId]? := by
  simp only [writeRequest, perform_store, Store.apply, getElem?_assign]
  rw [view_after_puts Store.requests (fun _ _ _ => rfl)]
  simp only [perform_store, Store.apply, getElem?_assign]
  have named : (createdRequest env call).requestId = env.hash call.identity := rfl
  rw [named]
  split <;> rfl

/-- A task after a creation is one that the call creates, or as it was. -/
theorem getElem?_writeRequest (settings : Settings) (call : CreateCall) (state : QueueState)
    (taskId : String) :
    (∃ work ∈ call.tasks, taskIdOf env (env.hash call.identity) work = taskId ∧
        (writeRequest env settings call state).store.tasks[taskId]? =
          some (createdTask env settings call work)) ∨
      ((∀ work ∈ call.tasks, taskIdOf env (env.hash call.identity) work ≠ taskId) ∧
        (writeRequest env settings call state).store.tasks[taskId]? =
          state.store.tasks[taskId]?) := by
  rcases entries_after_writes Store.tasks (fun current record => current.perform .createRequest
      (.task record.taskId (some record))) TaskRecord.taskId some (fun _ _ => rfl)
    (call.tasks.map (createdTask env settings call)) (state.perform .createRequest
      (.request (env.hash call.identity) (some (createdRequest env call)))) taskId with
    ⟨record, created, named, found⟩ | ⟨others, found⟩
  · obtain ⟨work, member, rfl⟩ := List.mem_map.mp created
    exact .inl ⟨work, member, named, found⟩
  · exact .inr ⟨fun work member => others _ (List.mem_map_of_mem member), found⟩

theorem writeRequest_tasks {env : Environment} {settings : Settings} {call : CreateCall}
    {state : QueueState} {taskId : String} {task : TaskRecord}
    (stored : (writeRequest env settings call state).store.tasks[taskId]? = some task) :
    state.store.tasks[taskId]? = some task ∨
      ∃ work ∈ call.tasks, task = createdTask env settings call work ∧ task.taskId = taskId := by
  rcases getElem?_writeRequest env settings call state taskId with
    ⟨work, member, named, found⟩ | ⟨_, found⟩
  · obtain rfl := Option.some.inj (stored.symm.trans found)
    exact .inr ⟨work, member, rfl, named⟩
  · exact .inl (found.symm.trans stored)

/-! ## Ownership is kept -/

section Preservation

variable {env : Environment} {settings : Settings} {permits : Permits}
variable {state next : QueueState}

variable {requestId : String}

/-- A request that is not remembered has no tasks. -/
theorem Owned.childless (owned : Owned env state.store)
    (absent : state.store.idempotency[requestId]? = none) (taskId : String) (task : TaskRecord)
    (stored : state.store.tasks[taskId]? = some task) : task.requestId ≠ requestId := by
  intro same
  obtain ⟨request, found, _⟩ := owned.taskListed taskId task stored
  have remembered := owned.remembered _ _ found
  rw [same, absent] at remembered
  cases remembered

theorem Owned.task_update (owned : Owned env state.store) {taskId : String}
    {record : Option TaskRecord} (move : TaskMove env writer state.store.tasks[taskId]? record)
    (other : writer ≠ .createRequest) :
    Owned env (state.perform writer (.task taskId record)).store := by
  have found : ∀ (key : String) (task : TaskRecord),
      (assign state.store.tasks taskId record)[key]? = some task →
        ∃ prior, state.store.tasks[key]? = some prior ∧ task.identity = prior.identity := by
    intro key task stored
    rcases of_getElem?_assign stored with ⟨rfl, rfl⟩ | ⟨_, earlier⟩
    · exact move.origin other
    · exact ⟨task, earlier, rfl⟩
  refine
    { taskKey := ?_
      taskName := ?_
      taskListed := ?_
      requestKey := owned.requestKey
      requestName := owned.requestName
      remembered := owned.remembered }
  · intro key task stored
    obtain ⟨prior, earlier, same⟩ := found key task stored
    exact (congrArg Prod.fst same).trans (owned.taskKey key prior earlier)
  · intro key task stored
    obtain ⟨prior, earlier, same⟩ := found key task stored
    simp only [TaskRecord.identity, Prod.mk.injEq] at same
    simp only [taskIdOf, same]
    exact owned.taskName key prior earlier
  · intro key task stored
    obtain ⟨prior, earlier, same⟩ := found key task stored
    have sameRequest : task.requestId = prior.requestId :=
      congrArg (fun identity => identity.2.1) same
    rw [sameRequest]
    exact owned.taskListed key prior earlier

theorem Owned.request_update (owned : Owned env state.store)
    (stored : state.store.requests[requestId]? = some old)
    (move : RequestMove writer old new) :
    Owned env (state.perform writer (.request requestId (some new))).store := by
  have same := move.identity_eq
  simp only [RequestRecord.identity, Prod.mk.injEq] at same
  have found : ∀ (key : String) (request : RequestRecord),
      (assign state.store.requests requestId (some new))[key]? = some request →
        ∃ prior, state.store.requests[key]? = some prior ∧ request.identity = prior.identity := by
    intro key request written
    rcases of_getElem?_assign written with ⟨rfl, ⟨⟩⟩ | ⟨_, earlier⟩
    · exact ⟨old, stored, move.identity_eq⟩
    · exact ⟨request, earlier, rfl⟩
  refine
    { taskKey := owned.taskKey
      taskName := owned.taskName
      taskListed := ?_
      requestKey := ?_
      requestName := ?_
      remembered := ?_ }
  · intro taskId task present
    obtain ⟨request, requested, inside⟩ := owned.taskListed taskId task present
    by_cases sameKey : requestId = task.requestId
    · rw [← sameKey, stored] at requested
      cases requested
      refine ⟨new, ?_, same.2.2 ▸ inside⟩
      simp only [perform_store, Store.apply, getElem?_assign, if_pos sameKey]
    · refine ⟨request, ?_, inside⟩
      simp only [perform_store, Store.apply, getElem?_assign, if_neg sameKey, requested]
  · intro key request written
    obtain ⟨prior, earlier, sameIdentity⟩ := found key request written
    simp only [RequestRecord.identity, Prod.mk.injEq] at sameIdentity
    rw [sameIdentity.1, sameIdentity.2.1]
    exact owned.requestKey key prior earlier
  · intro key request written
    obtain ⟨prior, earlier, _⟩ := found key request written
    exact owned.requestName key prior earlier
  · intro key request written
    obtain ⟨prior, earlier, _⟩ := found key request written
    exact owned.remembered key prior earlier

/-- Whether tasks are owned depends on tasks, requests and idempotency records only. -/
theorem Owned.of_eq {store other : Store} (owned : Owned env store)
    (tasks : other.tasks = store.tasks) (requests : other.requests = store.requests)
    (idempotency : other.idempotency = store.idempotency) : Owned env other := by
  constructor
  · rw [tasks]
    exact owned.taskKey
  · rw [tasks]
    exact owned.taskName
  · rw [tasks, requests]
    exact owned.taskListed
  · rw [requests]
    exact owned.requestKey
  · rw [requests]
    exact owned.requestName
  · rw [requests, idempotency]
    exact owned.remembered

theorem Owned.neutral_update (owned : Owned env state.store) (writer : Writer) {write : Write}
    (neutral : write.isNeutral = true) : Owned env (state.perform writer write).store := by
  cases write with
  | request | task | idempotency | metadata => cases neutral
  | _ => exact owned.of_eq rfl rfl rfl

/-- Creating a request that is not remembered gives it its tasks and leaves the
tasks of every other request with their owner. -/
theorem Owned.create_update (owned : Owned env state.store) (call : CreateCall)
    (absent : state.store.idempotency[env.hash call.identity]? = none) :
    Owned env (writeRequest env settings call state).store := by
  have found : ∀ (key : String) (request : RequestRecord),
      (writeRequest env settings call state).store.requests[key]? = some request →
        (key = env.hash call.identity ∧ request = { createdRequest env call with ready := true }) ∨
          (env.hash call.identity ≠ key ∧ state.store.requests[key]? = some request) := by
    intro key request stored
    rw [writeRequest_requests] at stored
    split at stored
    · next same => exact .inl ⟨same.symm, (Option.some.inj stored).symm⟩
    · next different => exact .inr ⟨different, stored⟩
  refine
    { taskKey := ?_
      taskName := ?_
      taskListed := ?_
      requestKey := ?_
      requestName := ?_
      remembered := ?_ }
  · intro key task stored
    rcases writeRequest_tasks stored with earlier | ⟨work, _, _, named⟩
    · exact owned.taskKey key task earlier
    · exact named
  · intro key task stored
    rcases writeRequest_tasks stored with earlier | ⟨work, _, rfl, named⟩
    · exact owned.taskName key task earlier
    · exact named.symm
  · intro key task stored
    rw [writeRequest_requests]
    rcases writeRequest_tasks stored with earlier | ⟨work, member, rfl, named⟩
    · rw [if_neg (owned.childless absent key task earlier).symm]
      exact owned.taskListed key task earlier
    · refine ⟨_, if_pos rfl, ?_⟩
      rw [← named]
      exact List.mem_map_of_mem member
  · intro key request stored
    rcases found key request stored with ⟨rfl, rfl⟩ | ⟨_, earlier⟩
    · exact ⟨rfl, rfl⟩
    · exact owned.requestKey key request earlier
  · intro key request stored
    rcases found key request stored with ⟨rfl, rfl⟩ | ⟨_, earlier⟩
    · exact ⟨call.identity, rfl⟩
    · exact owned.requestName key request earlier
  · intro key request stored
    simp only [writeRequest, perform_store, Store.apply, getElem?_assign]
    rw [view_after_puts Store.idempotency (fun _ _ _ => rfl)]
    rcases found key request stored with ⟨rfl, rfl⟩ | ⟨different, earlier⟩
    · exact if_pos rfl
    · exact (if_neg different).trans (owned.remembered key request earlier)

/-- Forgetting a request without tasks takes no task away from its owner. -/
theorem Owned.forget_update (owned : Owned env state.store)
    (childless : ∀ (taskId : String) (task : TaskRecord),
      state.store.tasks[taskId]? = some task → task.requestId ≠ requestId)
    {store : Store} (tasks : store.tasks = state.store.tasks)
    (requests : store.requests = assign state.store.requests requestId none)
    (idempotency : store.idempotency = assign state.store.idempotency requestId none) :
    Owned env store := by
  have found : ∀ (key : String) (request : RequestRecord),
      store.requests[key]? = some request →
        requestId ≠ key ∧ state.store.requests[key]? = some request := by
    intro key request stored
    rw [requests] at stored
    exact (of_getElem?_assign stored).resolve_left fun own => by cases own.2
  refine
    { taskKey := by rw [tasks]; exact owned.taskKey
      taskName := by rw [tasks]; exact owned.taskName
      taskListed := ?_
      requestKey := fun key request stored => owned.requestKey key request (found _ _ stored).2
      requestName := fun key request stored => owned.requestName key request (found _ _ stored).2
      remembered := ?_ }
  · intro taskId task stored
    rw [tasks] at stored
    rw [requests, getElem?_assign_of_ne _ _ (childless taskId task stored).symm]
    exact owned.taskListed taskId task stored
  · intro key request stored
    obtain ⟨different, earlier⟩ := found key request stored
    rw [idempotency, getElem?_assign_of_ne _ _ different]
    exact owned.remembered key request earlier

/-- Every update keeps tasks owned and requests remembered. -/
theorem Update.owned (update : Update env settings permits state next)
    (owned : Owned env state.store) :
    Owned env next.store := by
  cases update with
  | task writer taskId record move present => exact owned.task_update move present
  | request writer requestId old new stored move => exact owned.request_update stored move
  | remember writer key requestId request stored same =>
    subst same
    refine { owned with remembered := ?_ }
    intro other record present
    simp only [perform_store, Store.apply, getElem?_assign]
    split
    · next same => rw [same]
    · exact owned.remembered other record present
  | create call permitted absent => exact owned.create_update call absent
  | forget writer requestId first second childless both =>
    rcases both with ⟨rfl, rfl⟩ | ⟨rfl, rfl⟩
    · exact owned.forget_update childless rfl rfl rfl
    · exact owned.forget_update childless rfl rfl rfl
  | metadata writer key object permitted => exact owned.of_eq rfl rfl rfl
  | neutral writer write neutral => exact owned.neutral_update writer neutral

/-- Where a stored request comes from: it was there, a function rewrote it, or it is new. -/
theorem Update.request_cases (update : Update env settings permits state next)
    {request : RequestRecord} (stored : next.store.requests[requestId]? = some request) :
    state.store.requests[requestId]? = some request ∨
      (∃ writer old, state.store.requests[requestId]? = some old ∧ RequestMove writer old request) ∨
      ∃ call, permits.creates call ∧ request = { createdRequest env call with ready := true } := by
  cases update with
  | request writer key old new found move =>
    rcases of_getElem?_assign stored with ⟨rfl, ⟨⟩⟩ | ⟨_, earlier⟩
    · exact .inr (.inl ⟨writer, old, found, move⟩)
    · exact .inl earlier
  | create call permitted absent =>
    rw [writeRequest_requests] at stored
    split at stored
    · exact .inr (.inr ⟨call, permitted, (Option.some.inj stored).symm⟩)
    · exact .inl stored
  | forget writer key first second childless both =>
    refine .inl ?_
    rcases both with ⟨rfl, rfl⟩ | ⟨rfl, rfl⟩ <;>
      exact ((of_getElem?_assign stored).resolve_left fun own => by cases own.2).2
  | neutral writer write neutral =>
    cases write with
    | request _ _ => cases neutral
    | _ => exact .inl stored
  | _ => exact .inl stored

end Preservation

/-- Finitely many updates. -/
def Updates (settings : Settings) (permits : Permits) :
    QueueState → QueueState → Prop :=
  Relation.ReflTransGen (Update env settings permits)

/-- An operation on an owned store amounts to finitely many updates. This is the
form in which each operation is described: it composes, because updates keep the
store owned. -/
def Leads (settings : Settings) (permits : Permits) (first second : QueueState) : Prop :=
  Owned env first.store → Updates env settings permits first second

section Leading

variable {env : Environment} {settings : Settings} {permits : Permits}
  {state first second third : QueueState}

theorem Updates.owned (updates : Updates env settings permits first second)
    (owned : Owned env first.store) : Owned env second.store := by
  induction updates with
  | refl => exact owned
  | tail _ update ih => exact update.owned ih

theorem Leads.refl : Leads env settings permits state state :=
  fun _ => .refl

theorem Leads.trans (left : Leads env settings permits first second)
    (right : Leads env settings permits second third) : Leads env settings permits first third :=
  fun owned => (left owned).trans (right ((left owned).owned owned))

theorem Leads.of_update (update : Update env settings permits first second) :
    Leads env settings permits first second :=
  fun _ => .single update

/-- A loop whose every iteration leads on leads on as a whole. -/
theorem Leads.foldl {body : QueueState → α → QueueState} {items : List α}
    (each : ∀ {state item}, Leads env settings permits state (body state item)) :
    Leads env settings permits state (items.foldl body state) :=
  List.foldlRecOn items body .refl fun _ earlier _ _ => earlier.trans each

end Leading

end ShortcutProxy.WorkQueue
