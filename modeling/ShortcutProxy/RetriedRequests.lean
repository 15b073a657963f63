import ShortcutProxy.CompletableRequests

/-!
# What becomes of a retried request

`retry_task` resets one failed task and reopens its request. The request succeeds only
when all its tasks have succeeded, and no function takes a cancelled task up again.
Since the failure of a task cancels its unfinished siblings, a retry usually reopens a
request that can no longer succeed. It can exactly when the finished siblings have
succeeded.
-/
namespace ShortcutProxy.WorkQueue

open Contract Generation Records TableMetadata Environment

/-! ## Requests that cannot be completed -/

/-- A request that lists a finished task without success, and has not succeeded itself. -/
structure Stuck (requestId taskId : String) (store : Store) : Prop where
  request : ∃ request, store.requests[requestId]? = some request ∧ taskId ∈ request.taskIds ∧
    request.state ≠ .succeeded
  task : ∃ task, store.tasks[taskId]? = some task ∧ task.state.terminal = true ∧
    task.state ≠ .succeeded

section Stuck

variable {env : Environment} {settings : Settings} {requestId taskId : String}
  {state next : QueueState}

/-- Finished tasks stay, so only a change of the request matters. -/
theorem Stuck.advance (stuck : Stuck requestId taskId state.store) (advances : Advances state next)
    (request : ∃ request, next.store.requests[requestId]? = some request ∧
      taskId ∈ request.taskIds ∧ request.state ≠ .succeeded) : Stuck requestId taskId next.store := by
  obtain ⟨task, stored, finished, unsuccessful⟩ := stuck.task
  obtain ⟨later, kept, _, same⟩ := advances taskId task stored
  rw [same finished] at kept
  exact ⟨request, task, kept, finished, unsuccessful⟩

theorem Stuck.of_advancing {writers : List Writer} (stuck : Stuck requestId taskId state.store)
    (owned : Owned env state.store) (moves : Moves env settings {} writers state next)
    (advancing : ∀ writer ∈ writers, writer.advancing = true ∧ writer.writesRequests = false) :
    Stuck requestId taskId next.store := by
  refine stuck.advance (moves.advances owned fun writer member => (advancing writer member).1) ?_
  rw [moves.within.requests_eq fun writer member => (advancing writer member).2]
  exact stuck.request

theorem Stuck.refreshRequest (settings : Settings) (stuck : Stuck requestId taskId state.store)
    (owned : Owned env state.store) (now : Int) (other : String) :
    Stuck requestId taskId (refreshRequest now other state).store := by
  have advances : Advances state (WorkQueue.refreshRequest now other state) :=
    (@refreshRequest_moves env settings {} [.refreshRequests] _ _ _ (by simp)).advances owned
      (by simp)
  refine stuck.advance advances ?_
  obtain ⟨request, stored, listed, unsuccessful⟩ := stuck.request
  obtain ⟨task, present, _, undone⟩ := stuck.task
  rcases refreshRequest_cases now other state with
    same | ⟨found, settled, foundStored, _, _, _, requests, shape⟩
  · rw [same]
    exact ⟨request, stored, listed, unsuccessful⟩
  · rw [shape]
    simp only [QueueState.perform_store, Store.apply, requests, getElem?_assign]
    by_cases own : other = requestId
    · subst own
      rw [stored] at foundStored
      cases foundStored
      refine ⟨_, if_pos rfl, listed, ?_⟩
      intro succeeded
      have outcome : (refreshOutcome request (state.store.tasksOf request)).1 = .succeeded :=
        succeeded
      rcases refreshOutcome_terminal request _ (by rw [outcome]; decide) with failed | all
      · rw [failed] at outcome
        cases outcome
      · exact undone (all task (List.mem_filterMap.mpr ⟨taskId, listed, present⟩))
    · exact ⟨request, (if_neg own).trans stored, listed, unsuccessful⟩

theorem Stuck.cancelRequest (settings : Settings) (stuck : Stuck requestId taskId state.store)
    (owned : Owned env state.store) (other reason : String) (now : Int) :
    Stuck requestId taskId (cancelRequest env other reason now state).2.store := by
  have advances : Advances state (WorkQueue.cancelRequest env other reason now state).2 :=
    (@cancelRequest_moves env settings {} [.cancelRequest] _ _ _ _ (by simp)).advances owned
      (by simp)
  refine stuck.advance advances ?_
  obtain ⟨request, stored, listed, unsuccessful⟩ := stuck.request
  unfold WorkQueue.cancelRequest
  split
  · exact ⟨request, stored, listed, unsuccessful⟩
  · next found foundStored =>
    have stopped : (found.taskIds.foldl (fun current taskId =>
        cancelTask now (env.safeError reason) taskId current) state).store.requests =
          state.store.requests :=
      view_foldl Store.requests _ (fun current taskId =>
        cancelTask_requests) _ state
    simp only [QueueState.perform_store, Store.apply, stopped, getElem?_assign]
    by_cases own : other = requestId
    · subst own
      rw [stored] at foundStored
      cases foundStored
      exact ⟨_, if_pos rfl, listed, fun succeeded => by cases succeeded⟩
    · exact ⟨request, (if_neg own).trans stored, listed, unsuccessful⟩

theorem stuck_preserved (env : Environment) (settings : Settings) (requestId taskId : String) :
    Preserved env settings (Stuck requestId taskId) where
  advance stuck := stuck.of_advancing
  refresh stuck owned := stuck.refreshRequest settings owned
  cancel stuck owned := stuck.cancelRequest settings owned

/-- The work of Agents leaves a stuck request stuck. -/
theorem Stuck.execute {start limit : Int} (stuck : Stuck requestId taskId state.store)
    (owned : Owned env state.store) {operation : Operation} (work : operation.isWork start limit) :
    Stuck requestId taskId (execute env settings state operation).store := by
  have preserved := stuck_preserved env settings requestId taskId
  cases operation with
  | claimTask call =>
    exact stuck.of_advancing owned
      (@claimTask_moves env settings {} [.claimTask call] _ call (by simp))
      (by simp)
  | changeObject key contents => exact ⟨stuck.request, stuck.task⟩
  | releaseClaim => exact preserved.releaseClaim stuck owned _ _ _ _
  | acceptResult => exact preserved.acceptResult stuck owned _ _ _ _
  | _ => exact work.elim

/-- No work of Agents completes a stuck request. -/
theorem Stuck.not_completable {start limit : Int} {operations : List Operation}
    (stuck : Stuck requestId taskId (run env settings operations).store) :
    ¬Completable env settings start limit requestId (run env settings operations) := by
  rintro ⟨work, worked, request, stored, succeeded⟩
  have still : Stuck requestId taskId (run env settings (operations ++ work)).store := by
    clear stored
    induction work using List.reverseRecOn with
    | nil => simpa using stuck
    | append_singleton earlier operation ih =>
      have before := ih fun other inside =>
        worked other (List.mem_append_left _ inside)
      rw [← List.append_assoc, run_append_singleton]
      exact before.execute (run_owned _) (worked operation (by simp))
  obtain ⟨other, otherStored, _, unsuccessful⟩ := still.request
  rw [run, List.foldl_append] at otherStored
  rw [run, otherStored] at stored
  cases stored
  exact unsuccessful succeeded

end Stuck

/-! ## Retries -/

section Retry

variable {env : Environment} {settings : Settings}

/-- The siblings that are not finished can still be completed in time. -/
def SiblingsLive (env : Environment) (store : Store) (taskId : String) (request : RequestRecord)
    (start limit : Int) : Prop :=
  ∀ other ∈ request.taskIds, other ≠ taskId → ∀ sibling, store.tasks[other]? = some sibling →
    sibling.state.terminal = false → Finishable env store start limit sibling

/-- After a retry in any run, Agents can bring the request to success before its new
deadline exactly when every finished sibling of the task has succeeded. This presumes
Agents that can work: they can write a readable file, the generation of the request is
the current one and has a worker, and the unfinished siblings are within their own
deadlines. -/
theorem retried_completable_iff (operations : List Operation) (taskId : String) (now : Int)
    {task : TaskRecord} {request : RequestRecord} {contents : Bytes} {rows : Int}
    (readable : env.parquetRows contents = some rows)
    (stored : (run env settings operations).store.tasks[taskId]? = some task)
    (requested : (run env settings operations).store.requests[task.requestId]? = some request)
    (retried : (retryTask taskId now (run env settings operations)).1 = true)
    (served : Served env (run env settings operations).store task)
    (live : SiblingsLive env (run env settings operations).store taskId request now
      (retryDeadline now request)) :
    Completable env settings now (retryDeadline now request) task.requestId
        (retryTask taskId now (run env settings operations)).2 ↔
      ∀ other ∈ request.taskIds, other ≠ taskId → ∀ sibling,
        (run env settings operations).store.tasks[other]? = some sibling →
          sibling.state.terminal = true → sibling.state = .succeeded := by
  have shape : (retryTask taskId now (run env settings operations)).2 =
      writeRetry taskId now task request (run env settings operations) ∧
        request.published = false := by
    rcases retryTask_cases taskId now (run env settings operations) with
      refused | ⟨found, other, foundStored, _, otherStored, unpublished, result⟩
    · rw [refused] at retried
      cases retried
    · rw [stored] at foundStored
      cases foundStored
      rw [requested] at otherStored
      cases otherStored
      exact ⟨by rw [result], unpublished⟩
  obtain ⟨result, unpublished⟩ := shape
  have owned : Owned env (run env settings operations).store := run_owned operations
  have named := (owned.requestKey _ _ requested).1
  have again : run env settings (operations ++ [.retryTask taskId now]) =
      writeRetry taskId now task request (run env settings operations) := by
    rw [← result]
    exact run_append_singleton env settings operations _
  have listed : taskId ∈ request.taskIds := by
    obtain ⟨known, knownStored, inside⟩ := owned.taskListed taskId task stored
    rw [requested] at knownStored
    cases knownStored
    exact inside
  have requests : (writeRetry taskId now task request
      (run env settings operations)).store.requests[task.requestId]? =
        some (retriedRequest now request) := by
    rw [writeRetry_requests, named]
    exact getElem?_assign_self _ _ _
  have own : (writeRetry taskId now task request
      (run env settings operations)).store.tasks[taskId]? =
        some (WorkQueue.retried now (retryDeadline now request) task) := by
    rw [writeRetry_tasks]
    exact getElem?_assign_self _ _ _
  have others : ∀ other, other ≠ taskId → (writeRetry taskId now task request
      (run env settings operations)).store.tasks[other]? =
        (run env settings operations).store.tasks[other]? := by
    intro other apart
    rw [writeRetry_tasks]
    exact getElem?_assign_of_ne _ _ (.symm apart)
  have coordinator : (writeRetry taskId now task request
      (run env settings operations)).store.coordinator =
        (run env settings operations).store.coordinator :=
    deleteResults_view Store.coordinator (fun _ _ _ => rfl) _ _ _
  have memberships : (writeRetry taskId now task request
      (run env settings operations)).store.memberships =
        (run env settings operations).store.memberships :=
    deleteResults_view Store.memberships (fun _ _ _ => rfl) _ _ _
  have ahead : now < retryDeadline now request := by
    unfold retryDeadline
    omega
  rw [result, ← again]
  constructor
  · intro completable other inside apart sibling present finished
    by_contra undone
    refine @Stuck.not_completable env settings _ other _ _ _ ⟨?_, ?_⟩ completable
    · rw [again]
      exact ⟨_, requests, inside, fun succeeded => by cases succeeded⟩
    · rw [again, others other apart]
      exact ⟨sibling, present, finished, undone⟩
  · intro finishedWell
    refine Awaiting.completable ahead readable _ _ ⟨_, rfl⟩ (retriedRequest now request)
      ⟨?_, ?_, ?_, ?_⟩ rfl ?_
    · rw [again]
      exact requests
    · exact unpublished
    · exact rfl
    · rw [again]
      intro other inside sibling present
      by_cases same : other = taskId
      · subst same
        rw [own] at present
        cases present
        refine .inr ⟨served.of_eq coordinator memberships rfl rfl rfl, Or.inr ⟨rfl, ?_, ?_⟩⟩
        · simpa [TaskRecord.begins, WorkQueue.retried] using ahead
        · simp only [TaskRecord.begins, WorkQueue.retried, max_self, TaskRecord.deadlinePassed,
            decide_eq_false_iff_not, not_and, not_le]
          exact fun _ => ahead
      · rw [others other same] at present
        cases finished : sibling.state.terminal with
        | true => exact .inl (finishedWell other inside same sibling present finished)
        | false =>
          rcases live other inside same sibling present finished with done | ⟨well, rest⟩
          · exact .inl done
          · exact .inr ⟨well.of_eq coordinator memberships rfl rfl rfl, rest⟩
    · rw [again]
      exact ⟨taskId, listed, _, own, fun succeeded => by cases succeeded⟩

end Retry

/-! ### Two requests that are retried -/

/-- A request for `t` with as many splits as listed. -/
def splitRequest (splits : List Int) : CreateCall :=
  { smallRequest 1 "g" 1 with
    tasks := splits.map fun split => { smallTask 1 with splitIndex := split } }

/-- The identifier of one task of such a request. -/
def splitTaskId (splits : List Int) (split : Int) : String :=
  taskIdOf .transparent (Environment.transparent.hash (splitRequest splits).identity)
    { smallTask 1 with splitIndex := split }

/-- The request is created, and the Agent reports that its first task failed for good. -/
def failing (splits : List Int) : List Operation :=
  let task := { smallTask 1 with splitIndex := 0 }
  let call := splitRequest splits
  [.createRequest call, .claimTask (firstClaim .transparent call task "token"),
    .acceptResult { firstReport .transparent call task "token" [] with
      ok := false, errorCode := "source_error" } "agent-lease" 2000 2000]

/-- One attempt after another, a minute each. -/
def threeAttempts : Settings := .clamped 60 3 1 60

/-- The failure of one of two tasks cancels the other. The retry of the first is
accepted, but no work of Agents completes the request any more. -/
theorem retried_request_stuck :
    let state := run .transparent threeAttempts (failing [0, 1])
    (retryTask (splitTaskId [0, 1] 0) 3000 state).1 = true ∧
      ∀ start limit, ¬Completable .transparent threeAttempts start limit
        (transparent.hash (splitRequest [0, 1]).identity)
        (retryTask (splitTaskId [0, 1] 0) 3000 state).2 := by
  have facts :
      (retryTask (splitTaskId [0, 1] 0) 3000
          (run .transparent threeAttempts (failing [0, 1]))).1 = true ∧
        ((run .transparent threeAttempts (failing [0, 1] ++ [.retryTask (splitTaskId [0, 1] 0)
          3000])).store.requests[transparent.hash
            (splitRequest [0, 1]).identity]?.any fun request =>
              decide (splitTaskId [0, 1] 1 ∈ request.taskIds ∧ request.state ≠ .succeeded)) = true ∧
        ((run .transparent threeAttempts (failing [0, 1] ++ [.retryTask (splitTaskId [0, 1] 0)
          3000])).store.tasks[splitTaskId [0, 1] 1]?.any fun task =>
            decide (task.state.terminal = true ∧ task.state ≠ .succeeded)) = true := by
    decide +kernel
  obtain ⟨accepted, open_, cancelled⟩ := facts
  refine ⟨accepted, ?_⟩
  intro start limit
  obtain ⟨request, stored, listed⟩ := (Option.any_eq_true _ _).mp open_
  obtain ⟨task, present, finished⟩ := (Option.any_eq_true _ _).mp cancelled
  have stuck : Stuck (transparent.hash (splitRequest [0, 1]).identity)
      (splitTaskId [0, 1] 1) (run .transparent threeAttempts
        (failing [0, 1] ++ [.retryTask (splitTaskId [0, 1] 0) 3000])).store :=
    ⟨⟨request, stored, of_decide_eq_true listed⟩, ⟨task, present, of_decide_eq_true finished⟩⟩
  have same := run_append_singleton .transparent threeAttempts (failing [0, 1])
    (.retryTask (splitTaskId [0, 1] 0) 3000)
  have blocked : ¬Completable .transparent threeAttempts start limit _ _ := stuck.not_completable
  rw [same] at blocked
  exact blocked

/-- A request with a single task, whose retry Agents can complete. -/
theorem retried_completable_single :
    Completable .transparent threeAttempts 3000 4000
      (transparent.hash (splitRequest [0]).identity)
      (retryTask (splitTaskId [0] 0) 3000 (run .transparent threeAttempts (failing [0]))).2 := by
  have facts : ((run .transparent threeAttempts (failing [0])).store.tasks[splitTaskId [0] 0]?.any
        fun task => decide (task.requestId = transparent.hash
          (splitRequest [0]).identity)) = true ∧
      ((run .transparent threeAttempts (failing [0])).store.requests[transparent.hash
        (splitRequest [0]).identity]?.any fun request =>
          decide (request.taskIds = [splitTaskId [0] 0] ∧ retryDeadline 3000 request = 4000)) =
            true ∧
      (retryTask (splitTaskId [0] 0) 3000 (run .transparent threeAttempts (failing [0]))).1 = true ∧
      (run .transparent threeAttempts (failing [0])).store.coordinator.isNone = true ∧
      (run .transparent threeAttempts (failing [0])).store.memberships.isEmpty = true := by
    decide +kernel
  obtain ⟨known, listed, accepted, uncoordinated, alone⟩ := facts
  obtain ⟨task, stored, own⟩ := (Option.any_eq_true _ _).mp known
  obtain ⟨request, requested, shape⟩ := (Option.any_eq_true _ _).mp listed
  obtain ⟨onlyTask, deadline⟩ := of_decide_eq_true shape
  have belongs := of_decide_eq_true own
  rw [← belongs] at requested ⊢
  rw [← deadline]
  refine (@retried_completable_iff .transparent threeAttempts (failing [0]) (splitTaskId [0] 0) 3000
    task request [0] 1 rfl stored requested accepted ?_ ?_).mpr ?_
  · refine ⟨⟨none, ?_, fun context found => by cases found⟩, Or.inr ?_⟩
    · rw [currentGeneration, Option.isNone_iff_eq_none.mp uncoordinated]
    · intro membership found
      rw [Std.ExtTreeMap.isEmpty_iff.mp alone] at found
      simp at found
  all_goals
    intro other inside apart
    rw [onlyTask] at inside
    exact absurd (List.mem_singleton.mp inside) apart

end ShortcutProxy.WorkQueue
