import ShortcutProxy.TaskTransitions

/-!
# Requests and their tasks

In every run of the queue the request and task records fit together. A stored
request is ready and has all its tasks, every one of them names it, and the tasks
of a finished request are finished. Tasks otherwise only advance: apart from
creation, retry, recovery and pruning, no function takes a task away or changes a
finished one.

It follows that `recover` never finds a task missing, and that a claimed task
always belongs to an unfinished request. A run here is a sequence of completed
calls. Calls that a crash or a failing store cuts short are not among its steps.
-/
namespace ShortcutProxy.WorkQueue

open Contract Generation Records TableMetadata List

theorem queued_unfinished : TaskState.terminal .queued ≠ true := by decide

/-! ## Tasks stay and finished tasks do not change -/

/-- Every task is still there and has its request, and a finished one is the same. -/
def Advances (first second : QueueState) : Prop :=
  ∀ (taskId : String) (task : TaskRecord), first.store.tasks[taskId]? = some task →
    ∃ later, second.store.tasks[taskId]? = some later ∧ later.requestId = task.requestId ∧
      (task.state.terminal = true → later = task)

theorem Advances.refl (state : QueueState) : Advances state state :=
  fun _ task stored => ⟨task, stored, rfl, fun _ => rfl⟩

theorem Advances.trans {first second third : QueueState} (left : Advances first second)
    (right : Advances second third) : Advances first third := by
  intro taskId task stored
  obtain ⟨middle, found, sameRequest, kept⟩ := left taskId task stored
  obtain ⟨later, foundLater, sameLater, keptLater⟩ := right taskId middle found
  refine ⟨later, foundLater, sameLater.trans sameRequest, ?_⟩
  intro finished
  have unchanged := kept finished
  subst unchanged
  exact keptLater finished

/-- States with the same tasks. -/
theorem Advances.of_eq {first second : QueueState}
    (same : second.store.tasks = first.store.tasks) : Advances first second := by
  intro taskId task stored
  exact ⟨task, same ▸ stored, rfl, fun _ => rfl⟩

/-- Rewriting a task within its request, unless it is finished. -/
theorem Advances.put {state : QueueState} {taskId : String} {old new : TaskRecord} (writer : Writer)
    (stored : state.store.tasks[taskId]? = some old) (sameRequest : new.requestId = old.requestId)
    (kept : old.state.terminal = true → new = old) :
    Advances state (state.perform writer (.task taskId (some new))) := by
  intro other task found
  by_cases same : taskId = other
  · subst same
    rw [stored] at found
    cases found
    exact ⟨new, getElem?_assign_self _ _ _, sameRequest, kept⟩
  · refine ⟨task, ?_, rfl, fun _ => rfl⟩
    rw [QueueState.perform_store, Store.apply, getElem?_assign_of_ne _ _ same]
    exact found

/-- The functions that neither create nor delete tasks and leave finished ones. -/
@[simp]
def Writer.advancing : Writer → Bool
  | .createRequest | .retryTask | .recover | .pruneTerminal => false
  | _ => true

/-- Such a function writes a finished task at most as it is. -/
theorem TaskMove.eq_of_terminal {env : Environment} {writer : Writer} {old new : TaskRecord}
    (move : TaskMove env writer (some old) (some new)) (advancing : writer.advancing = true)
    (finished : old.state.terminal = true) : new = old := by
  have unfinished : ∀ {current : TaskState}, current.terminal = false → old.state ≠ current := by
    rintro current open_ rfl
    rw [finished] at open_
    cases open_
  have waits : TaskState.runnable old.state = false := by
    simp [TaskState.runnable, @unfinished .queued (by decide), @unfinished .retryWait (by decide)]
  have unheld : old.state ≠ .claimed := unfinished (by decide)
  cases move with
  | created | retried | recovered => cases advancing
  | deadlineExpired now task due => simp [TaskRecord.waitingPastDeadline, waits] at due
  | claimExpired now task due => simp [TaskRecord.claimLapsed, unheld] at due
  | expirySettled target task expired => exact absurd expired (unfinished (by decide))
  | siblingCancelled now task unsettled => exact absurd rfl (unfinished unsettled)
  | siblingRepeated => rfl
  | requeued call task waiting => exact absurd waiting (unfinished (by decide))
  | claimed call duration task queued => exact absurd queued (unfinished (by decide))
  | renewed agentId agentLeaseId now task live => simp [renewable, unheld] at live
  | released now reason task held | reassigned now task held
  | fenced now task held => exact absurd held unheld
  | dispatched now reason task runnable => simp [waits] at runnable
  | cancelled now reason task unsettled => exact absurd rfl (unfinished unsettled)
  | succeeded now result claim task held
  | reportedFailure settings now result task held => exact absurd held unheld

section Advancing

variable {env : Environment} {settings : Settings} {permits : Permits} {writers : List Writer}
  {state next : QueueState}

/-- An update by such functions advances the tasks. -/
theorem Update.advances (advancing : ∀ writer ∈ writers, writer.advancing = true)
    (update : Update env settings permits state next) (adds : Adds writers state next) :
    Advances state next := by
  cases update with
  | task writer taskId record move present =>
    obtain ⟨member, touched⟩ := adds.head
    have own := advancing writer member
    cases record with
    | none => cases writer <;> first | (cases touched; done) | cases own
    | some new =>
      obtain ⟨old, stored, _⟩ := move.origin present
      rw [stored] at move
      have same := congrArg (fun identity => identity.2.1) (move.identity_eq present)
      exact .put writer stored same (move.eq_of_terminal own)
  | create call permitted absent =>
    obtain ⟨early, grown⟩ := @writeRequest_journal env settings call state
    cases advancing _ (adds.allowed grown _ mem_cons_self).1
  | forget writer requestId first second childless both =>
    rcases both with ⟨rfl, rfl⟩ | ⟨rfl, rfl⟩
    · exact .of_eq rfl
    · exact .of_eq rfl
  | request | remember | metadata => exact .of_eq rfl
  | neutral writer write neutral =>
    cases write with
    | task taskId record => cases neutral
    | _ => exact .of_eq rfl

/-- Updates by such functions advance the tasks. -/
theorem Moves.advances (moves : Moves env settings {} writers state next)
    (owned : Owned env state.store) (advancing : ∀ writer ∈ writers, writer.advancing = true) :
    Advances state next :=
  Updates.rule (.refl _) .trans
    (fun _ _ _ update adds => update.advances advancing adds) owned (moves.leads owned)
    moves.within.adds

end Advancing

/-! ## Requests and their tasks fit together -/

/-- A stored request is ready, has all its tasks, and when it is finished they are
finished; a published request is finished. -/
structure Intact (store : Store) : Prop where
  ready : ∀ (requestId : String) (request : RequestRecord),
    store.requests[requestId]? = some request → request.ready = true
  listed : ∀ (requestId : String) (request : RequestRecord),
    store.requests[requestId]? = some request → ∀ taskId ∈ request.taskIds,
      ∃ task, store.tasks[taskId]? = some task ∧ task.requestId = requestId ∧
        (request.state.terminal = true → task.state.terminal = true)
  finished : ∀ (requestId : String) (request : RequestRecord),
    store.requests[requestId]? = some request → request.published = true →
      request.state.terminal = true

theorem intact_empty : Intact ({} : Store) where
  ready _ _ stored := by simp at stored
  listed _ _ stored := by simp at stored
  finished _ _ stored := by simp at stored

section Intact

variable {env : Environment} {settings : Settings} {state next : QueueState}

/-- What an intact store says of one request. -/
structure Fits (store : Store) (requestId : String) (request : RequestRecord) : Prop where
  ready : request.ready = true
  listed : ∀ taskId ∈ request.taskIds, ∃ task, store.tasks[taskId]? = some task ∧
    task.requestId = requestId ∧ (request.state.terminal = true → task.state.terminal = true)
  finished : request.published = true → request.state.terminal = true

variable {requestId : String} {request : RequestRecord}

theorem Intact.fits {store : Store} (intact : Intact store)
    (stored : store.requests[requestId]? = some request) :
    Fits store requestId request :=
  ⟨intact.ready _ _ stored, intact.listed _ _ stored, intact.finished _ _ stored⟩

theorem Intact.of_fits {store : Store}
    (fits : ∀ requestId request, store.requests[requestId]? = some request →
      Fits store requestId request) : Intact store :=
  ⟨fun _ _ stored => (fits _ _ stored).ready, fun _ _ stored => (fits _ _ stored).listed,
    fun _ _ stored => (fits _ _ stored).finished⟩

/-- A request whose tasks have advanced still has them. -/
theorem Fits.advance (fits : Fits state.store requestId request) (advances : Advances state next) :
    Fits next.store requestId request := by
  refine ⟨fits.ready, ?_, fits.finished⟩
  intro taskId inside
  obtain ⟨task, stored, own, settled⟩ := fits.listed taskId inside
  obtain ⟨later, found, same, kept⟩ := advances taskId task stored
  refine ⟨later, found, same.trans own, ?_⟩
  intro finished
  have terminal := settled finished
  rw [kept terminal]
  exact terminal

/-- Advancing tasks keep a store intact. -/
theorem Intact.advance (intact : Intact state.store) (advances : Advances state next)
    (same : next.store.requests = state.store.requests) : Intact next.store :=
  .of_fits fun _ _ stored => (intact.fits (same ▸ stored)).advance advances

/-- Rewriting one request, after its tasks have advanced, keeps a store intact when
the rewritten record fits its tasks. -/
theorem Intact.put (intact : Intact state.store) (advances : Advances state next)
    (same : next.store.requests = state.store.requests) (writer : Writer)
    (fits : Fits next.store requestId request) :
    Intact (next.perform writer (.request requestId (some request))).store := by
  refine .of_fits fun other record stored => ?_
  rcases of_getElem?_assign stored with ⟨rfl, ⟨⟩⟩ | ⟨_, earlier⟩
  · exact ⟨fits.ready, fits.listed, fits.finished⟩
  · have kept := (intact.advance advances same).fits earlier
    exact ⟨kept.ready, kept.listed, kept.finished⟩

/-! ### Refreshing -/

/-- A request is refreshed to a finished state when a task failed or all succeeded. -/
theorem refreshOutcome_terminal (request : RequestRecord) (tasks : List TaskRecord)
    (finished : (refreshOutcome request tasks).1.terminal = true) :
    (refreshOutcome request tasks).1 = .failed ∨ ∀ task ∈ tasks, task.state = .succeeded := by
  revert finished
  simp only [refreshOutcome]
  split
  · next all => exact fun _ => .inr all.2
  · split
    · exact fun _ => .inl rfl
    · have claimed : TaskState.terminal .claimed ≠ true := by decide
      have waiting : TaskState.terminal .retryWait ≠ true := by decide
      split
      · exact fun finished => absurd finished claimed
      · split
        · exact fun finished => absurd finished waiting
        · exact fun finished => absurd finished queued_unfinished

/-- Every unfinished copy is cancelled, under its own identifier. -/
theorem cancelSiblings_settles (now : Int) (tasks : List TaskRecord) (state : QueueState)
    (task : TaskRecord) (member : task ∈ tasks) (unfinished : task.state.terminal = false) :
    ∃ later, (cancelSiblings now tasks state).store.tasks[task.taskId]? = some later ∧
      later.state.terminal = true := by
  have inside : task ∈ tasks.filter fun task => !task.state.terminal := by
    simp [mem_filter, member, unfinished]
  obtain ⟨earlier, rest, shape⟩ := append_of_mem inside
  rw [cancelSiblings, shape, foldl_append, foldl_cons]
  refine List.foldlRecOn (motive := fun current : QueueState => ∃ later,
      current.store.tasks[task.taskId]? = some later ∧ later.state.terminal = true) _ _
    ⟨siblingCancelled now task, getElem?_assign_self _ _ _, rfl⟩ ?_
  intro current found copy _
  by_cases same : copy.taskId = task.taskId
  · refine ⟨siblingCancelled now copy, ?_, rfl⟩
    rw [QueueState.perform_store, Store.apply, same, getElem?_assign_self]
  · rw [QueueState.perform_store, Store.apply, getElem?_assign_of_ne _ _ same]
    exact found

theorem Intact.refreshRequest (settings : Settings) (intact : Intact state.store)
    (owned : Owned env state.store) (now : Int) (requestId : String) :
    Intact (refreshRequest now requestId state).store := by
  have advances : Advances state (WorkQueue.refreshRequest now requestId state) :=
    (@refreshRequest_moves env settings {} [.refreshRequests] _ _ _ (by simp)).advances owned
      (by simp)
  rcases refreshRequest_cases now requestId state with
    same | ⟨request, settled, stored, unpublished, _, origin, requests, shape⟩
  · rw [same]
    exact intact
  · rw [shape] at advances ⊢
    have siblings : Advances state settled := fun taskId task found => advances taskId task found
    refine intact.put siblings requests .refreshRequests ⟨intact.ready _ request stored, ?_, ?_⟩
    · intro taskId inside
      obtain ⟨task, found, own, _⟩ := intact.listed _ request stored taskId inside
      obtain ⟨later, foundLater, same, kept⟩ := siblings taskId task found
      refine ⟨later, foundLater, same.trans own, ?_⟩
      intro finished
      by_cases terminal : task.state.terminal = true
      · rw [kept terminal]
        exact terminal
      · have member : task ∈ state.store.tasksOf request :=
          mem_filterMap.mpr ⟨taskId, inside, found⟩
        rcases refreshOutcome_terminal request _ finished with failed | succeeded
        · rcases origin with ⟨_, unfailed⟩ | ⟨rfl, _⟩
          · exact absurd failed unfailed
          · obtain ⟨cancelled, foundCancelled, done⟩ := cancelSiblings_settles now _ state task
              member (by simpa using terminal)
            rw [owned.taskKey taskId task found, foundLater] at foundCancelled
            cases foundCancelled
            exact done
        · rw [succeeded task member] at terminal
          exact absurd (by decide) terminal
    · intro published
      rw [unpublished] at published
      cases published

/-! ### The other operations -/

/-- The functions that write request records. -/
@[simp]
def Writer.writesRequests : Writer → Bool
  | .createRequest | .refreshRequests | .cancelRequest | .retryTask | .recover | .pruneTerminal
  | .publishSnapshot => true
  | _ => false

theorem Within.requests_eq {writers : List Writer} (within : Within writers state next)
    (others : ∀ writer ∈ writers, writer.writesRequests = false) :
    next.store.requests = state.store.requests := by
  refine within.view Store.requests ?_
  intro writer member write touched store
  cases write with
  | request requestId record =>
    have other := others writer member
    cases writer <;> first | (cases touched; done) | cases other
  | _ => rfl

/-- An operation that writes no request and advances tasks keeps a store intact. -/
theorem Intact.of_advancing {writers : List Writer} (intact : Intact state.store)
    (owned : Owned env state.store) (moves : Moves env settings {} writers state next)
    (advancing : ∀ writer ∈ writers, writer.advancing = true ∧ writer.writesRequests = false) :
    Intact next.store :=
  intact.advance (moves.advances owned fun writer member => (advancing writer member).1)
    (moves.within.requests_eq fun writer member => (advancing writer member).2)

/-- A property of stores that survives the progress of tasks, the refresh of a request and
the cancellation of one. -/
structure Preserved (env : Environment) (settings : Settings) (holds : Store → Prop) : Prop where
  advance : ∀ {writers : List Writer} {state next : QueueState}, holds state.store →
    Owned env state.store → Moves env settings {} writers state next →
    (∀ writer ∈ writers, writer.advancing = true ∧ writer.writesRequests = false) →
    holds next.store
  refresh : ∀ {state : QueueState}, holds state.store → Owned env state.store →
    ∀ now requestId, holds (refreshRequest now requestId state).store
  cancel : ∀ {state : QueueState}, holds state.store → Owned env state.store →
    ∀ requestId reason now, holds (cancelRequest env requestId reason now state).2.store

section Preservation

variable {holds : Store → Prop} (preserved : Preserved env settings holds)
  (before : holds state.store) (owned : Owned env state.store)

include preserved before owned

theorem Preserved.refreshRequests (now : Int) : holds (refreshRequests now state).store := by
  refine (List.foldlRecOn (motive := fun current : QueueState => Owned env current.store ∧
      holds current.store) _ _ ⟨owned, before⟩ ?_).2
  rintro current ⟨held, still⟩ requestId _
  exact ⟨held.refreshRequest now requestId, preserved.refresh still held now requestId⟩

theorem Preserved.expireClaims (now : Int) : holds (expireClaims now state).2.store := by
  have visits := @expireTasks_moves env settings {} [.expireClaims] state now (by simp)
  exact preserved.refreshRequests (preserved.advance before owned visits
    (by simp)) (visits.owned owned) now

theorem Preserved.releaseClaim (taskId claimToken reason : String) (now : Int) :
    holds (releaseClaim env taskId claimToken reason now state).2.store := by
  unfold WorkQueue.releaseClaim
  split
  · exact before
  · next task stored =>
    split
    · exact before
    · next held =>
      split
      · exact before
      · have returns : Moves env settings {} [.releaseClaim] state (state.perform .releaseClaim
            (.task taskId (some (returned now (env.safeError reason) task)))) :=
          .task (by simp) stored (.released now _ task (by simpa using held)) (by simp)
        exact preserved.refreshRequests (preserved.advance before owned returns
          (by simp)) (returns.owned owned) now

theorem Preserved.fenceClaims (managerOwner : String) (managerFence now : Int) :
    holds (fenceClaims managerOwner managerFence now state).2.store := by
  have fences :=
    @fenceTasks_moves env settings {} [.fenceClaims] state now managerFence managerOwner (by simp)
  have moved := preserved.advance before owned fences (by simp)
  simp only [WorkQueue.fenceClaims]
  split
  · exact moved
  · exact preserved.refreshRequests moved (fences.owned owned) now

theorem Preserved.acceptResult (result : TaskResult) (agentLeaseId : String) (now cancelNow : Int) :
    holds (acceptResult env settings result agentLeaseId now cancelNow state).2.store := by
  have expired := preserved.expireClaims before owned now
  rcases @acceptResult_cases env settings result agentLeaseId now cancelNow state with
    same | same | ⟨task, stored, _, same | ⟨claim, settled, saved, move, same⟩⟩
  · rw [same]
    exact before
  · rw [same]
    exact expired
  · rw [same]
    exact preserved.cancel expired (owned.expireClaims now) _ _ _
  · rw [same]
    have settles : Moves env settings {} [.acceptResult] (WorkQueue.expireClaims now state).2
        (((WorkQueue.expireClaims now state).2.perform .acceptResult
          (.task result.taskId (some settled))).perform .acceptResult
            (.result ⟨result.taskId, settled.attempt⟩ (some
              { taskId := result.taskId
                attempt := settled.attempt
                state := settled.state
                result := saved
                agentLeaseHash := claim.agentLeaseHash }))) :=
      (Moves.task (by simp) stored move (by simp)).trans (.neutral (by simp) rfl rfl)
    exact preserved.refreshRequests (preserved.advance expired (owned.expireClaims now) settles
      (by simp))
      (settles.owned (owned.expireClaims now)) now

end Preservation

/-- Cancelling the listed tasks of a request finishes them. -/
theorem cancelTasks_settle (now : Int) (reason : String) (taskIds : List String)
    (settings : Settings) (owned : Owned env state.store) (taskId : String)
    (inside : taskId ∈ taskIds) (task : TaskRecord)
    (stored : state.store.tasks[taskId]? = some task) :
    ∃ later, (taskIds.foldl (fun current other => cancelTask now reason other current)
        state).store.tasks[taskId]? = some later ∧
      later.requestId = task.requestId ∧ later.state.terminal = true := by
  have advances : ∀ (others : List String) (current : QueueState), Owned env current.store →
      Advances current (others.foldl (fun inner other => cancelTask now reason other inner)
        current) := by
    intro others current held
    exact (@cancelTasks_moves env settings {} [.cancelRequest] _ _ _ _ (by simp)).advances
      held (by simp)
  induction taskIds generalizing state task with
  | nil => cases inside
  | cons first rest ih =>
    have ownedNext : Owned env (cancelTask now reason first state).store :=
      (@cancelTask_moves env settings {} [.cancelRequest] _ _ _ _ (by simp)).owned owned
    by_cases same : first = taskId
    · subst same
      obtain ⟨stopped, found, own, finished⟩ :
          ∃ stopped, (cancelTask now reason first state).store.tasks[first]? = some stopped ∧
            stopped.requestId = task.requestId ∧ stopped.state.terminal = true := by
        simp only [cancelTask, stored]
        split
        · next finished => exact ⟨task, stored, rfl, finished⟩
        · exact ⟨cancelled now reason task, getElem?_assign_self _ _ _, rfl, rfl⟩
      obtain ⟨later, foundLater, _, kept⟩ := advances rest _ ownedNext first stopped found
      rw [kept finished] at foundLater
      exact ⟨stopped, foundLater, own, finished⟩
    · obtain ⟨middle, found, own, _⟩ := advances [first] state owned taskId task stored
      have member : taskId ∈ rest := by
        rcases mem_cons.mp inside with head | tail
        · exact absurd head.symm same
        · exact tail
      obtain ⟨later, foundLater, ownLater, finished⟩ :=
        ih ownedNext member middle found
      exact ⟨later, foundLater, ownLater.trans own, finished⟩

theorem Intact.cancelRequest (settings : Settings) (intact : Intact state.store)
    (owned : Owned env state.store) (requestId reason : String) (now : Int) :
    Intact (cancelRequest env requestId reason now state).2.store := by
  unfold WorkQueue.cancelRequest
  split
  · exact intact
  · next request stored =>
    have advances : Advances state (request.taskIds.foldl
        (fun current taskId => cancelTask now (env.safeError reason) taskId current) state) :=
      (@cancelTasks_moves env settings {} [.cancelRequest] _ _ _ _ (by simp)).advances
        owned (by simp)
    refine intact.put advances ?_ _ ⟨intact.ready _ request stored, ?_, fun _ => rfl⟩
    · exact view_foldl Store.requests _
        (fun current taskId => cancelTask_requests) _ state
    · intro taskId inside
      obtain ⟨task, found, own, _⟩ := intact.listed _ request stored taskId inside
      obtain ⟨later, foundLater, same, finished⟩ := cancelTasks_settle now (env.safeError reason)
        request.taskIds settings owned taskId inside task found
      exact ⟨later, foundLater, same.trans own, fun _ => finished⟩

theorem intact_preserved (env : Environment) (settings : Settings) :
    Preserved env settings Intact where
  advance intact := intact.of_advancing
  refresh intact owned := intact.refreshRequest settings owned
  cancel intact owned := intact.cancelRequest settings owned

section

variable (intact : Intact state.store)
include intact

theorem Intact.retryTask (owned : Owned env state.store)
    (taskId : String) (now : Int) : Intact (retryTask taskId now state).2.store := by
  rcases retryTask_cases taskId now state with refused | ⟨task, request, stored, _, requested,
    unpublished, shape⟩
  · rw [refused]
    exact intact
  · have named := (owned.requestKey _ _ requested).1
    -- The task keeps its request, so the other requests keep their tasks.
    have kept : ∀ (other requestId : String) (found : TaskRecord),
        state.store.tasks[other]? = some found → found.requestId = requestId →
        ∃ later, (writeRetry taskId now task request state).store.tasks[other]? = some later ∧
          later.requestId = requestId ∧ (request.requestId ≠ requestId → later = found) := by
      intro other requestId found foundStored own
      rw [writeRetry_tasks, getElem?_assign]
      by_cases same : taskId = other
      · subst same
        rw [stored] at foundStored
        cases foundStored
        rw [if_pos rfl]
        exact ⟨_, rfl, own, fun different => absurd (named.trans own) different⟩
      · rw [if_neg same]
        exact ⟨found, foundStored, own, fun _ => rfl⟩
    have origin : ∀ (requestId : String) (record : RequestRecord),
        (writeRetry taskId now task request state).store.requests[requestId]? = some record →
          (requestId = request.requestId ∧ record = retriedRequest now request) ∨
            (request.requestId ≠ requestId ∧ state.store.requests[requestId]? = some record) := by
      intro requestId record found
      rw [writeRetry_requests] at found
      exact (of_getElem?_assign found).imp_left fun own => ⟨own.1, (Option.some.inj own.2).symm⟩
    rw [shape]
    refine .of_fits fun requestId record found => ?_
    rcases origin requestId record found with ⟨rfl, rfl⟩ | ⟨different, earlier⟩
    · rw [← named] at requested
      refine ⟨intact.ready _ request requested, ?_, ?_⟩
      · intro other inside
        obtain ⟨prior, priorStored, own, _⟩ := intact.listed _ request requested other inside
        obtain ⟨later, foundLater, ownLater, _⟩ := kept other _ prior priorStored own
        exact ⟨later, foundLater, ownLater, fun finished => absurd finished queued_unfinished⟩
      · intro published
        rw [retriedRequest, unpublished] at published
        cases published
    · refine ⟨intact.ready _ record earlier, ?_, intact.finished _ record earlier⟩
      intro other inside
      obtain ⟨prior, priorStored, own, settled⟩ := intact.listed _ record earlier other inside
      obtain ⟨later, foundLater, ownLater, same⟩ := kept other _ prior priorStored own
      rw [same different] at foundLater
      exact ⟨prior, foundLater, own, settled⟩

theorem Intact.createRequest (owned : Owned env state.store)
    (call : CreateCall) : Intact (createRequest env settings call state).2.store := by
  rcases createRequest_cases env settings call state with same | ⟨absent, written⟩
  · rw [same]
    exact intact
  · rw [written]
    refine .of_fits fun requestId record found => ?_
    have puts := getElem?_writeRequest env settings call state
    rw [writeRequest_requests] at found
    split at found
    · next same =>
      subst same
      cases found
      refine ⟨rfl, ?_, fun published => by cases published⟩
      intro taskId inside
      obtain ⟨work, member, rfl⟩ := mem_map.mp inside
      rcases puts (taskIdOf env (env.hash call.identity) work) with
        ⟨_, _, _, stored⟩ | ⟨others, _⟩
      · exact ⟨_, stored, rfl, fun finished => absurd finished queued_unfinished⟩
      · exact absurd rfl (others work member)
    · refine ⟨intact.ready _ record found, ?_, intact.finished _ record found⟩
      intro taskId inside
      obtain ⟨prior, priorStored, own, settled⟩ := intact.listed _ record found taskId inside
      rcases puts taskId with ⟨work, _, named, _⟩ | ⟨_, stored⟩
      · rw [← named] at priorStored
        exact absurd (priorStored.symm.trans (owned.unused call absent work)) (by simp)
      · exact ⟨prior, stored.trans priorStored, own, settled⟩

theorem Intact.publishSnapshot (requestId : String)
    (manifest : SnapshotManifest) (now : Int) :
    Intact (publishSnapshot env requestId manifest now state).2.store := by
  unfold WorkQueue.publishSnapshot
  split
  · exact intact
  · next publication prepared =>
    obtain ⟨request, guard, datasetId, publishable, _, _, rfl⟩ := preparePublication_ok prepared
    obtain ⟨stored, succeeded, _⟩ := publishableRequest_ok publishable
    have written : Advances state (state.perform .publishSnapshot
        (.snapshot ⟨manifest.table, manifest.epoch⟩
          (publicationOf request manifest now guard datasetId).manifest)) := .of_eq rfl
    refine intact.put written rfl .publishSnapshot ⟨intact.ready _ request stored,
      intact.listed _ request stored, ?_⟩
    intro _
    change request.state.terminal = true
    rw [succeeded]
    decide

/-- Recovering the requests of an intact store remembers them and does nothing else. -/
theorem Intact.recoverRequests (clock : RecoverClock) :
    let settled := (listing state.store.requests).foldl
      (fun current request => recoverRequest clock request current) state
    settled.store.requests = state.store.requests ∧ settled.store.tasks = state.store.tasks := by
  refine List.foldlRecOn (motive := fun current : QueueState =>
      current.store.requests = state.store.requests ∧ current.store.tasks = state.store.tasks) _ _
    ⟨rfl, rfl⟩ ?_
  rintro current ⟨sameRequests, sameTasks⟩ request member
  obtain ⟨key, stored⟩ := (mem_listing _ _).mp member
  have nothingMissing : ¬∃ taskId ∈ request.taskIds, current.store.tasks[taskId]? = none := by
    rintro ⟨taskId, inside, missing⟩
    obtain ⟨task, found, _⟩ := intact.listed key request stored taskId inside
    rw [sameTasks, found] at missing
    cases missing
  have visit : recoverRequest clock request current = current.perform .recover
      (.idempotency request.idempotencyKey (some request.requestId)) := by
    rw [recoverRequest, if_pos (intact.ready key request stored), markMissing,
      if_neg nothingMissing]
  rw [visit]
  exact ⟨sameRequests, sameTasks⟩

/-- Recovering an intact store keeps every request and advances the tasks. -/
theorem Intact.recoverRecords_frame (owned : Owned env state.store)
    (clock : RecoverClock) :
    (recoverRecords clock state).store.requests = state.store.requests ∧
      Advances state (recoverRecords clock state) := by
  obtain ⟨sameRequests, sameTasks⟩ := intact.recoverRequests clock
  have kept : ∀ task ∈ state.store.listTasks, task.requestId ∈
      ((listing state.store.requests).filter RequestRecord.ready).map RequestRecord.requestId := by
    intro task member
    obtain ⟨taskId, stored⟩ := (mem_listing _ _).mp member
    obtain ⟨request, requested, _⟩ := owned.taskListed taskId task stored
    refine mem_map.mpr ⟨request, ?_, (owned.requestKey _ request requested).1⟩
    exact mem_filter.mpr
      ⟨(mem_listing _ _).mpr ⟨_, requested⟩, intact.ready _ request requested⟩
  simp only [recoverRecords, Store.listTasks]
  rw [sameTasks]
  generalize ((listing state.store.requests).filter RequestRecord.ready).map
    RequestRecord.requestId = keptIds at kept ⊢
  generalize (listing state.store.requests).foldl
    (fun current request => recoverRequest clock request current) state = settled at *
  have walked := Records.walk
    (fun (current : QueueState) task =>
      current.store.tasks[task.taskId]? = some task ∧ task.requestId ∈ keptIds)
    (recoverTask clock keptIds)
    (fun first second => second.store.requests = first.store.requests ∧ Advances first second)
    ⟨rfl, .refl _⟩ (fun left right => ⟨right.1.trans left.1, left.2.trans right.2⟩)
    (fun first second => first.taskId ≠ second.taskId) ?_ ?_ (listing state.store.tasks) settled ?_
    (listing_pairwise _ _ owned.taskKey)
  · exact ⟨walked.1.trans sameRequests, (Advances.of_eq sameTasks).trans walked.2⟩
  · rintro current task ⟨stored, member⟩
    rw [recoverTask, if_neg (not_not.mpr member)]
    split
    · next expired =>
      refine ⟨rfl, Advances.put _ stored rfl ?_⟩
      intro finished
      rw [expired] at finished
      exact absurd finished (by decide)
    · exact ⟨rfl, Advances.refl current⟩
  · rintro current task other apart ⟨stored, member⟩
    exact ⟨(recoverTask_kept clock keptIds current task other.taskId apart).trans stored, member⟩
  · intro task member
    obtain ⟨key, stored⟩ := (mem_listing _ _).mp member
    refine ⟨?_, kept task member⟩
    rw [sameTasks, owned.taskKey key task stored]
    exact stored

end

/-- Pruning leaves a request as it is, or takes it away with its tasks. -/
theorem pruneRequest_cases (env : Environment) (cutoff : Int) (requestId : String)
    (state : QueueState) :
    pruneRequest env cutoff requestId state = state ∨
      ∃ request, state.store.requests[requestId]? = some request ∧
        (pruneRequest env cutoff requestId state).store.requests =
          assign state.store.requests requestId none ∧
        ∀ taskId ∉ request.taskIds,
          (pruneRequest env cutoff requestId state).store.tasks[taskId]? =
            state.store.tasks[taskId]? := by
  unfold pruneRequest
  split
  · exact .inl rfl
  · next request stored =>
    split
    · refine .inr ⟨request, stored, ?_, ?_⟩
      · simp only [QueueState.perform_store, Store.apply]
        rw [view_foldl Store.requests]
        intro current taskId
        obtain ⟨swept, same, shape⟩ := pruneTask_view Store.requests (fun _ _ _ => rfl)
          (fun _ _ _ => rfl) env request taskId current
        rw [shape]
        exact same
      · intro taskId outside
        rcases entries_after_writes Store.tasks _ id (fun _ => none)
          (pruneTask_tasks env request) request.taskIds state taskId with ⟨_, inside, rfl, _⟩ | ⟨_, found⟩
        · exact absurd inside outside
        · exact found
    · exact .inl rfl

theorem Intact.pruneRequest (intact : Intact state.store) (cutoff : Int) (requestId : String) :
    Intact (pruneRequest env cutoff requestId state).store := by
  rcases pruneRequest_cases env cutoff requestId state with same | ⟨request, stored, requests, kept⟩
  · rw [same]
    exact intact
  · refine .of_fits fun other record found => ?_
    rw [requests] at found
    rcases of_getElem?_assign found with ⟨_, ⟨⟩⟩ | ⟨different, earlier⟩
    refine ⟨intact.ready _ record earlier, ?_, intact.finished _ record earlier⟩
    intro taskId inside
    obtain ⟨task, taskStored, own, settled⟩ := intact.listed other record earlier taskId inside
    have outside : taskId ∉ request.taskIds := by
      intro listed
      obtain ⟨owner, ownerStored, ownerNamed, _⟩ := intact.listed _ request stored taskId listed
      rw [taskStored] at ownerStored
      cases ownerStored
      exact different (ownerNamed.symm.trans own)
    exact ⟨task, (kept taskId outside).trans taskStored, own, settled⟩

theorem Intact.pruneTerminal (intact : Intact state.store) (retentionSeconds now : Int) :
    Intact (pruneTerminal env retentionSeconds now state).2.store := by
  exact List.foldlRecOn (motive := fun current : QueueState => Intact current.store) _ _ intact
    fun _ fits requestId _ => fits.pruneRequest _ requestId

/-- Every operation keeps a store intact. -/
theorem Intact.execute (intact : Intact state.store) (owned : Owned env state.store)
    (operation : Operation) : Intact (execute env settings state operation).store := by
  have preserved := intact_preserved env settings
  have moves := @execute_moves env settings {} state operation operation.permitted_all
  cases operation with
  | createRequest call => exact intact.createRequest owned call
  | releaseClaim => exact preserved.releaseClaim intact owned _ _ _ _
  | acceptResult => exact preserved.acceptResult intact owned _ _ _ _
  | expireClaims => exact preserved.expireClaims intact owned _
  | fenceClaims => exact preserved.fenceClaims intact owned _ _ _
  | cancelRequest => exact preserved.cancel intact owned _ _ _
  | retryTask taskId now => exact intact.retryTask owned taskId now
  | recoverRecords clock =>
    obtain ⟨same, advances⟩ := intact.recoverRecords_frame owned clock
    exact intact.advance advances same
  | recover clock =>
    obtain ⟨same, advances⟩ := intact.recoverRecords_frame owned clock
    exact preserved.expireClaims (intact.advance advances same) (owned.recoverRecords clock) _
  | pruneTerminal retentionSeconds now => exact intact.pruneTerminal retentionSeconds now
  | publishSnapshot requestId manifest now => exact intact.publishSnapshot requestId manifest now
  | _ =>
    exact intact.of_advancing owned moves (by simp)

end Intact

/-- Requests and tasks fit together after every run. -/
theorem run_intact (env : Environment) (settings : Settings) (operations : List Operation) :
    Intact (run env settings operations).store := by
  induction operations using List.reverseRecOn with
  | nil => exact intact_empty
  | append_singleton earlier operation ih =>
    rw [run_append_singleton]
    exact ih.execute (run_owned earlier) operation

end ShortcutProxy.WorkQueue
