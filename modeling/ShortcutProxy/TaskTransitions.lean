import ShortcutProxy.QueueOperations

/-!
# Every task record follows the transition table

Seen through its task records alone, a run is a sequence of task moves: updates
that write no task leave them as they are, and creating a request writes fresh
records only, because the identifiers of its tasks are digests that no task of
another request can share.

From the move alone one reads off the transition it makes. The two facts that
the table needs beyond the moves, which record was there before and whether it
carried a claim, are supplied by the journal: the record found by a write is the
latest one written, and every record written so far carries a claim exactly when
it is claimed.
-/
namespace ShortcutProxy.WorkQueue

open Contract Generation Records

/-- One write, as far as task records are concerned. -/
inductive TaskStep (env : Environment) (state : QueueState) : QueueState → Prop
  | task (writer : Writer) (taskId : String) (record : Option TaskRecord)
      (move : TaskMove env writer state.store.tasks[taskId]? record) :
      TaskStep env state (state.perform writer (.task taskId record))
  | other (writer : Writer) (write : Write)
      (apart : ∀ taskId record, write ≠ .task taskId record) :
      TaskStep env state (state.perform writer write)

/-- Finitely many writes, as far as task records are concerned. -/
def TaskSteps (env : Environment) : QueueState → QueueState → Prop :=
  Relation.ReflTransGen (TaskStep env)

section Steps

variable {env : Environment} {settings : Settings} {permits : Permits}
variable {state next : QueueState}

theorem TaskSteps.other (state : QueueState) (writer : Writer) (write : Write)
    (apart : ∀ taskId record, write ≠ .task taskId record) :
    TaskSteps env state (state.perform writer write) :=
  Relation.ReflTransGen.single (.other writer write apart)

/-- Writing queued records over nothing, or over queued records, is a sequence
of creations. -/
theorem puts_taskSteps (records : List TaskRecord) (state : QueueState)
    (queued : ∀ record ∈ records, record.claim = none ∧ record.state = .queued)
    (fresh : ∀ record ∈ records, ∀ prior,
      state.store.tasks[record.taskId]? = some prior → prior.state = .queued) :
    TaskSteps env state (records.foldl (fun current record => current.perform .createRequest
      (.task record.taskId (some record))) state) := by
  induction records generalizing state with
  | nil => exact .refl
  | cons record rest ih =>
    obtain ⟨unclaimed, headQueued⟩ := queued record List.mem_cons_self
    have created : TaskStep env state
        (state.perform .createRequest (.task record.taskId (some record))) :=
      .task _ _ _ (.created _ record unclaimed headQueued (fresh record List.mem_cons_self))
    refine .head created (ih _ ?_ ?_)
    · exact fun other inside => queued other (List.mem_cons_of_mem _ inside)
    · intro other inside prior stored
      simp only [QueueState.perform_store, Store.apply, getElem?_assign] at stored
      split at stored
      · cases stored
        exact headQueued
      · exact fresh other (List.mem_cons_of_mem _ inside) prior stored

/-- The identifiers of a request that is not remembered are unused: a stored task
of that name would belong to a request of the same identifier. -/
theorem Owned.unused (owned : Owned env state.store) (call : CreateCall)
    (absent : state.store.idempotency[env.hash call.identity]? = none) (work : MaterializeTask) :
    state.store.tasks[taskIdOf env (env.hash call.identity) work]? = none := by
  cases stored : state.store.tasks[taskIdOf env (env.hash call.identity) work]? with
  | none => rfl
  | some task =>
    obtain ⟨request, requested, _⟩ := owned.taskListed _ task stored
    obtain ⟨text, named⟩ := owned.requestName _ _ requested
    have hashed : '|' ∉ task.requestId.toList := by
      rw [named]
      exact env.digest.bar_free text
    obtain ⟨sameRequest, _⟩ :=
      taskIdOf_inj (env.digest.bar_free _) hashed (owned.taskName _ task stored)
    exact absurd sameRequest.symm (owned.childless absent _ task stored)

theorem create_taskSteps (owned : Owned env state.store) (call : CreateCall)
    (absent : state.store.idempotency[env.hash call.identity]? = none) :
    TaskSteps env state (writeRequest env settings call state) := by
  refine .trans (TaskSteps.other state .createRequest
    (.request (env.hash call.identity) (some (createdRequest env call))) (by simp)) ?_
  refine .trans
    (puts_taskSteps (call.tasks.map (createdTask env settings call)) _ ?_ ?_) ?_
  · intro record inside
    obtain ⟨work, _, rfl⟩ := List.mem_map.mp inside
    exact ⟨rfl, rfl⟩
  · intro record inside prior stored
    obtain ⟨work, _, rfl⟩ := List.mem_map.mp inside
    have unused := owned.unused call absent work
    exact absurd (stored.symm.trans unused) (by simp)
  · exact .trans (TaskSteps.other _ _ _ (by simp))
      (TaskSteps.other _ _ _ (by simp))

/-- An update is a sequence of task steps. -/
theorem Update.taskSteps (update : Update env settings permits state next)
    (owned : Owned env state.store) : TaskSteps env state next := by
  cases update with
  | task writer taskId record move present =>
    exact .single (.task writer taskId record move)
  | request | remember | metadata => exact .other _ _ _ (by simp)
  | create call permitted absent => exact create_taskSteps owned call absent
  | forget writer requestId first second childless both =>
    refine .trans (TaskSteps.other state writer first ?_)
      (TaskSteps.other _ writer second ?_)
    · rcases both with ⟨rfl, rfl⟩ | ⟨rfl, rfl⟩ <;> simp
    · rcases both with ⟨rfl, rfl⟩ | ⟨rfl, rfl⟩ <;> simp
  | neutral writer write neutral =>
    refine .other state writer write ?_
    rintro taskId record rfl
    cases neutral

/-- Updates from an owned store are task steps. -/
theorem Updates.taskSteps (updates : Updates env settings permits state next)
    (owned : Owned env state.store) : TaskSteps env state next := by
  induction updates with
  | refl => exact .refl
  | tail earlier update ih =>
    exact ih.trans (update.taskSteps (Updates.owned earlier owned))

theorem run_taskSteps (operations : List Operation) :
    TaskSteps env {} (run env settings operations) :=
  (run_updates operations fun operation _ => operation.permitted_all).taskSteps owned_empty

end Steps

/-! ## The transition table -/

/-- A change of state that the table allows, with the exception it makes for an
operator's retry. -/
def AllowedTransition (writer : Writer) (old new : TaskState) : Prop :=
  old = new ∨ validTaskTransition old new = true ∨
    (old = .failed ∧ new = .queued ∧ writer = .retryTask)

/-- A record carries a claim exactly when it is claimed. -/
def ClaimAgrees (task : TaskRecord) : Prop :=
  task.claim.isSome = true ↔ task.state = .claimed

/-- A write that leaves the claim in agreement with the state and, when it
replaces a record, makes an allowed transition. -/
def PermittedWrite (writer : Writer) (old new : Option TaskRecord) : Prop :=
  ∀ value, new = some value →
    ClaimAgrees value ∧ ∀ prior, old = some prior → AllowedTransition writer prior.state value.state

variable {task : TaskRecord} {writer : Writer}

/-- A record that is not claimed carries no claim. -/
theorem ClaimAgrees.unclaimed (agrees : ClaimAgrees task) (free : task.state ≠ .claimed) :
    task.claim = none := by
  cases entry : task.claim with
  | none => rfl
  | some claim => exact absurd (agrees.mp (by simp [entry])) free

theorem validTaskTransition_cancelled {state : TaskState} (unfinished : state.terminal = false) :
    validTaskTransition state .cancelled = true := by
  cases state <;> first | rfl | cases unfinished

/-- Replacing a record by an unclaimed one is permitted along the table. -/
theorem permittedWrite_unclaimed {value : TaskRecord} (unclaimed : value.claim = none)
    (free : value.state ≠ .claimed) (allowed : AllowedTransition writer task.state value.state) :
    PermittedWrite writer (some task) (some value) := by
  rintro written ⟨⟩
  refine ⟨by simp [ClaimAgrees, unclaimed, free], ?_⟩
  rintro prior ⟨⟩
  exact allowed

/-- Replacing a record by one of the same state is permitted if its claim agrees. -/
theorem permittedWrite_kept {value : TaskRecord} (agrees : ClaimAgrees value)
    (kept : value.state = task.state) : PermittedWrite writer (some task) (some value) := by
  rintro written ⟨⟩
  refine ⟨agrees, ?_⟩
  rintro prior ⟨⟩
  exact .inl kept.symm

theorem allowed_of_valid {old new source : TaskState} (found : old = source)
    (valid : validTaskTransition source new = true) : AllowedTransition writer old new :=
  .inr (.inl (found ▸ valid))

theorem expiryTarget_cases (now : Int) (task : TaskRecord) :
    expiryTarget now task = .failed ∨ expiryTarget now task = .queued := by
  unfold expiryTarget
  split
  · exact .inl rfl
  · exact .inr rfl

/-- Every move is permitted, provided the record it replaces agrees with its
claim. -/
theorem permittedWrite_of_move {env : Environment} {old new : Option TaskRecord}
    (move : TaskMove env writer old new) (agrees : ∀ prior, old = some prior → ClaimAgrees prior) :
    PermittedWrite writer old new := by
  cases move with
  | deleted =>
    intro value written
    cases written
  | created _ record unclaimed queued fresh =>
    rintro value ⟨⟩
    refine ⟨by simp [ClaimAgrees, unclaimed, queued], ?_⟩
    intro prior stored
    exact .inl ((fresh prior stored).trans queued.symm)
  | deadlineExpired now task due =>
    have waiting : task.state = .queued ∨ task.state = .retryWait := by
      simp only [TaskRecord.waitingPastDeadline, TaskState.runnable, decide_eq_true_eq] at due
      exact due.1
    rcases waiting with queued | retrying
    · have unclaimed := (agrees task rfl).unclaimed (by simp [queued])
      exact permittedWrite_unclaimed unclaimed (by simp [deadlineExpired])
        (allowed_of_valid queued rfl)
    · have unclaimed := (agrees task rfl).unclaimed (by simp [retrying])
      exact permittedWrite_unclaimed unclaimed (by simp [deadlineExpired])
        (allowed_of_valid retrying rfl)
  | claimExpired now task due =>
    have held : task.state = .claimed := by
      simp only [TaskRecord.claimLapsed, decide_eq_true_eq] at due
      exact due.1
    exact permittedWrite_unclaimed rfl (by simp [claimExpired]) (allowed_of_valid held rfl)
  | expirySettled target task expired reopened =>
    have unclaimed := (agrees task rfl).unclaimed (by simp [expired])
    rcases reopened with rfl | rfl <;>
      exact permittedWrite_unclaimed unclaimed (by simp [expirySettled])
        (allowed_of_valid expired rfl)
  | siblingCancelled now task unfinished =>
    exact permittedWrite_unclaimed rfl (by simp [siblingCancelled])
      (allowed_of_valid rfl (validTaskTransition_cancelled unfinished))
  | siblingRepeated now task => exact permittedWrite_kept (agrees _ rfl) rfl
  | requeued call task waiting =>
    have unclaimed := (agrees task rfl).unclaimed (by simp [waiting])
    exact permittedWrite_unclaimed unclaimed (by simp [requeued]) (allowed_of_valid waiting rfl)
  | claimed call duration task queued =>
    rintro value ⟨⟩
    refine ⟨by simp [ClaimAgrees, claimed], ?_⟩
    rintro prior ⟨⟩
    exact allowed_of_valid queued rfl
  | renewed agentId agentLeaseId now task live =>
    refine permittedWrite_kept ?_ rfl
    simpa [ClaimAgrees, renewed] using agrees task rfl
  | released now reason task held | fenced now task held =>
    exact permittedWrite_unclaimed rfl (by simp [returned]) (allowed_of_valid held rfl)
  | reassigned now task held =>
    exact permittedWrite_unclaimed rfl (by simp [reassigned, returned])
      (allowed_of_valid held rfl)
  | dispatched now reason task runnable => exact permittedWrite_kept (agrees task rfl) rfl
  | cancelled now reason task unfinished =>
    exact permittedWrite_unclaimed rfl (by simp [cancelled])
      (allowed_of_valid rfl (validTaskTransition_cancelled unfinished))
  | retried now deadline task failed =>
    exact permittedWrite_unclaimed rfl (by simp [retried]) (.inr (.inr ⟨failed, rfl, rfl⟩))
  | succeeded now result claim task held =>
    exact permittedWrite_unclaimed rfl (by simp [succeeded]) (allowed_of_valid held rfl)
  | reportedFailure settings now result task held =>
    refine permittedWrite_unclaimed rfl ?_ (allowed_of_valid held ?_)
    · cases again : retriesLeft result task <;> simp [reportedFailure, again]
    · cases again : retriesLeft result task <;>
        simp [reportedFailure, again, validTaskTransition, taskTransitions]
  | recovered clock task expired =>
    have unclaimed := (agrees task rfl).unclaimed (by simp [expired])
    rcases expiryTarget_cases (clock.deadlineCheck task.taskId) task with target | target <;>
      exact permittedWrite_unclaimed unclaimed (by simp [recovered, target])
        (allowed_of_valid expired (by simp only [recovered, target]; rfl))

/-! ## Whole runs -/

/-- The journal of task writes is lawful and the stored tasks are its latest
values. -/
structure LawfulTasks (state : QueueState) : Prop where
  journaled : state.Journaled
  lawful : Journal.Lawful PermittedWrite (taskJournal state.journal)

/-- Every stored record agrees with its claim. -/
theorem LawfulTasks.agrees {state : QueueState} (tasks : LawfulTasks state) {taskId : String}
    (stored : state.store.tasks[taskId]? = some task) : ClaimAgrees task := by
  rw [tasks.journaled taskId] at stored
  obtain ⟨entry, member, _, written⟩ := Journal.mem_of_latest stored
  exact tasks.lawful.forall_value (fun _ _ value permits => (permits value rfl).1) entry member task
    written

theorem LawfulTasks.step {env : Environment} {state next : QueueState} (tasks : LawfulTasks state)
    (step : TaskStep env state next) : LawfulTasks next := by
  cases step with
  | task writer taskId record move =>
    refine ⟨tasks.journaled.perform _ _, ?_⟩
    rw [QueueState.perform_journal, taskJournal_cons_task]
    refine ⟨?_, tasks.lawful⟩
    rw [← tasks.journaled taskId]
    exact permittedWrite_of_move move fun prior stored => tasks.agrees stored
  | other writer write apart =>
    refine ⟨tasks.journaled.perform _ _, ?_⟩
    rw [QueueState.perform_journal, taskJournal_cons_of_ne _ _ _ apart]
    exact tasks.lawful

/-- Lawfulness of the task journal survives any number of steps. -/
theorem TaskSteps.lawfulTasks {env : Environment} {first second : QueueState}
    (steps : TaskSteps env first second) (tasks : LawfulTasks first) : LawfulTasks second := by
  induction steps with
  | refl => exact tasks
  | tail _ step ih => exact ih.step step

theorem run_lawfulTasks (env : Environment) (settings : Settings) (operations : List Operation) :
    LawfulTasks (run env settings operations) := by
  have steps : TaskSteps env {} (run env settings operations) := run_taskSteps operations
  exact steps.lawfulTasks ⟨fun taskId => by simp, trivial⟩

/-- Every two successive values of one task record keep the state or make an
allowed transition, and every value carries a claim exactly when it is claimed. -/
def FollowsTransitions (journal : List (Journal.Entry String Writer TaskRecord)) : Prop :=
  (∀ first second old new, Journal.Successive journal first second →
      first.value = some old → second.value = some new →
        AllowedTransition second.writer old.state new.state) ∧
    ∀ entry ∈ journal, ∀ value, entry.value = some value → ClaimAgrees value

/-- In every run of the queue operations, in any order and at any clock readings,
the durable values of each task record follow the transition table. The only
exception is the reset of a failed task by `retry_task`. -/
theorem run_followsTransitions (env : Environment) (settings : Settings)
    (operations : List Operation) :
    (∀ taskId, (run env settings operations).store.tasks[taskId]? =
        Journal.latest taskId (taskJournal (run env settings operations).journal)) ∧
      FollowsTransitions (taskJournal (run env settings operations).journal) := by
  have tasks := run_lawfulTasks env settings operations
  refine ⟨tasks.journaled, ?_, ?_⟩
  · intro first second old new successive before after
    have permits := tasks.lawful.successive successive
    rw [before, after] at permits
    exact (permits new rfl).2 old rfl
  · intro entry member value written
    exact tasks.lawful.forall_value (fun _ _ value permits => (permits value rfl).1) entry member
      value written

end ShortcutProxy.WorkQueue
