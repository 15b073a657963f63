import ShortcutProxy.CompletableRequests
import ShortcutProxy.InterruptedCalls

/-!
# Recovery after a crash of `create_request`

A crash keeps the writes made so far, so what it leaves is a call cut after some of its
writes. `create_request` passes through three phases: nothing of the request is there, a
request that is not ready has some of its tasks, and the ready request has all of them.
`recover` removes a request in the second phase and completes one in the third, and each
of its own writes and deletions stays in one of the phases. So any number of recoveries
may crash as well before one of them completes.

The phases concern the records of one request. The writes that a recovery makes for other
requests do not touch them, because task identifiers are digests that name their request.
Successive recoveries read a clock that does not run backwards.
-/
namespace ShortcutProxy.WorkQueue

open Contract Generation Records TableMetadata List

/-! ## Properties on the way -/

/-- The property holds after each of the writes that lead from one state to another. -/
def Throughout (holds : Store → Prop) (first second : QueueState) : Prop :=
  ∃ writes, second = first.performAll writes ∧
    ∀ count, holds (first.performAll (writes.take count)).store

section Throughout

variable {holds : Store → Prop} {first second third : QueueState}

theorem Throughout.refl (start : holds first.store) : Throughout holds first first :=
  ⟨[], rfl, fun count => by simpa using start⟩

theorem Throughout.perform (start : holds first.store) (entry : Writer × Write)
    (after : holds (first.store.apply entry.2)) :
    Throughout holds first (first.perform entry.1 entry.2) := by
  refine ⟨[entry], rfl, ?_⟩
  intro count
  cases count with
  | zero => exact start
  | succ more =>
    rw [take_of_length_le (by simp)]
    exact after

theorem Throughout.mono {weaker : Store → Prop} (implies : ∀ store, holds store → weaker store)
    (throughout : Throughout holds first second) : Throughout weaker first second := by
  obtain ⟨writes, shape, each⟩ := throughout
  exact ⟨writes, shape, fun count => implies _ (each count)⟩

theorem Throughout.last (throughout : Throughout holds first second) : holds second.store := by
  obtain ⟨writes, rfl, each⟩ := throughout
  have final := each writes.length
  rwa [take_length] at final

theorem Throughout.trans (left : Throughout holds first second)
    (right : Throughout holds second third) : Throughout holds first third := by
  obtain ⟨early, rfl, eachEarly⟩ := left
  obtain ⟨late, rfl, eachLate⟩ := right
  refine ⟨early ++ late, (first.performAll_append early late).symm, ?_⟩
  intro count
  rw [take_append, QueueState.performAll_append]
  by_cases short : count ≤ early.length
  · rw [Nat.sub_eq_zero_of_le short, take_zero]
    exact eachEarly count
  · rw [take_of_length_le (not_le.mp short).le]
    exact eachLate _

theorem Throughout.foldl {α : Type} (body : QueueState → α → QueueState) (items : List α)
    (each : ∀ item ∈ items, ∀ state : QueueState, holds state.store →
      Throughout holds state (body state item))
    (state : QueueState) (start : holds state.store) :
    Throughout holds state (items.foldl body state) := by
  induction items generalizing state with
  | nil => exact .refl start
  | cons item rest ih =>
    have visit := each item mem_cons_self state start
    exact visit.trans (ih
      (fun other inside => each other (mem_cons_of_mem _ inside)) _ visit.last)

/-- A cut call leaves a state that its complete execution passes through. -/
theorem Throughout.interrupted {env : Environment} {settings : Settings} (operation : Operation)
    (throughout : Throughout holds first (execute env settings first operation)) (count : Nat) :
    holds (interrupted env settings first operation count).store := by
  obtain ⟨writes, shape, each⟩ := throughout
  rw [WorkQueue.interrupted, shape, addedWrites_performAll]
  exact each count

end Throughout

/-! ## The records of one request -/

variable {store : Store} {task : TaskRecord} {now : Int}

section Identity

variable {requestId : String} {taskIds : List String}

/-- The records of other requests keep away from the records of this one, and its tasks
have no answers. -/
structure Apart (requestId : String) (taskIds : List String) (store : Store) : Prop where
  requestKey : ∀ (key : String) (request : RequestRecord), store.requests[key]? = some request →
    request.requestId = key ∧ request.idempotencyKey = key
  listed : ∀ (key : String) (request : RequestRecord), store.requests[key]? = some request →
    key ≠ requestId → ∀ taskId ∈ request.taskIds, taskId ∉ taskIds
  taskKey : ∀ (key : String) (task : TaskRecord), store.tasks[key]? = some task →
    task.taskId = key
  owner : ∀ (key : String) (task : TaskRecord), store.tasks[key]? = some task →
    (task.requestId = requestId ↔ key ∈ taskIds)
  unanswered : ∀ (key : Versioned) (answer : ResultRecord), store.results[key]? = some answer →
    key.name ∉ taskIds

/-- The request, its idempotency record and its tasks are the same in both stores. -/
structure SameIdentity (requestId : String) (taskIds : List String) (first second : Store) :
    Prop where
  request : second.requests[requestId]? = first.requests[requestId]?
  idempotency : second.idempotency[requestId]? = first.idempotency[requestId]?
  tasks : ∀ taskId ∈ taskIds, second.tasks[taskId]? = first.tasks[taskId]?

theorem SameIdentity.refl (store : Store) : SameIdentity requestId taskIds store store :=
  ⟨rfl, rfl, fun _ _ => rfl⟩

theorem SameIdentity.trans {first second third : Store}
    (left : SameIdentity requestId taskIds first second)
    (right : SameIdentity requestId taskIds second third) :
    SameIdentity requestId taskIds first third :=
  ⟨right.request.trans left.request, right.idempotency.trans left.idempotency,
    fun taskId inside => (right.tasks taskId inside).trans (left.tasks taskId inside)⟩

/-- A write of records that name themselves rightly: a task names the request exactly when
its identifier is one of the request's. -/
def Fitting (requestId : String) (taskIds : List String) : Write → Prop
  | .task taskId record => ∀ task, record = some task →
      task.taskId = taskId ∧ (task.requestId = requestId ↔ taskId ∈ taskIds)
  | .request key record => ∀ request, record = some request →
      request.requestId = key ∧ request.idempotencyKey = key ∧
        (key ≠ requestId → ∀ taskId ∈ request.taskIds, taskId ∉ taskIds)
  | .result _ record => record = none
  | _ => True

theorem Fitting.apart {write : Write} (fits : Fitting requestId taskIds write)
    (apart : Apart requestId taskIds store) : Apart requestId taskIds (store.apply write) := by
  cases write with
  | task taskId record =>
    refine { apart with taskKey := ?_, owner := ?_ }
    · intro key task present
      rcases of_getElem?_assign present with ⟨rfl, written⟩ | ⟨_, earlier⟩
      · exact (fits task written).1
      · exact apart.taskKey key task earlier
    · intro key task present
      rcases of_getElem?_assign present with ⟨rfl, written⟩ | ⟨_, earlier⟩
      · exact (fits task written).2
      · exact apart.owner key task earlier
  | request key record =>
    refine { apart with requestKey := ?_, listed := ?_ }
    · intro name request present
      rcases of_getElem?_assign present with ⟨rfl, written⟩ | ⟨_, earlier⟩
      · exact ⟨(fits request written).1, (fits request written).2.1⟩
      · exact apart.requestKey name request earlier
    · intro name request present different
      rcases of_getElem?_assign present with ⟨rfl, written⟩ | ⟨_, earlier⟩
      · exact (fits request written).2.2 different
      · exact apart.listed name request earlier different
  | result key record =>
    have deleted : record = none := fits
    subst deleted
    refine { apart with unanswered := ?_ }
    intro name answer present
    rcases of_getElem?_assign present with ⟨_, ⟨⟩⟩ | ⟨_, earlier⟩
    exact apart.unanswered name answer earlier
  | _ => exact { apart with }

/-- A fitting write that does not touch the records of the request. -/
def Foreign (requestId : String) (taskIds : List String) (write : Write) : Prop :=
  Fitting requestId taskIds write ∧ match write with
    | .task taskId _ => taskId ∉ taskIds
    | .request key _ => key ≠ requestId
    | .idempotency key _ => key ≠ requestId
    | _ => True

theorem Foreign.same {write : Write} (foreign_ : Foreign requestId taskIds write) :
    SameIdentity requestId taskIds store (store.apply write) := by
  cases write with
  | task taskId record =>
    refine ⟨rfl, rfl, ?_⟩
    intro other inside
    refine getElem?_assign_of_ne _ _ ?_
    rintro rfl
    exact foreign_.2 inside
  | request key record => exact ⟨getElem?_assign_of_ne _ _ foreign_.2, rfl, fun _ _ => rfl⟩
  | idempotency key record => exact ⟨rfl, getElem?_assign_of_ne _ _ foreign_.2, fun _ _ => rfl⟩
  | _ => exact ⟨rfl, rfl, fun _ _ => rfl⟩

/-- The second state follows from the first by foreign writes, provided the records of the
request are apart in the first. -/
def Elsewhere (requestId : String) (taskIds : List String) (first second : QueueState) : Prop :=
  Apart requestId taskIds first.store → ∃ writes, second = first.performAll writes ∧
    ∀ entry ∈ writes, Foreign requestId taskIds entry.2

section Elsewhere

variable {first second third : QueueState}

/-- Foreign writes keep the records of the request, and keep the others apart. -/
theorem foreign_performAll (apart : Apart requestId taskIds first.store)
    (writes : List (Writer × Write))
    (foreign_ : ∀ entry ∈ writes, Foreign requestId taskIds entry.2) :
    Apart requestId taskIds (first.performAll writes).store ∧
      SameIdentity requestId taskIds first.store (first.performAll writes).store := by
  induction writes generalizing first with
  | nil => exact ⟨apart, .refl _⟩
  | cons entry rest ih =>
    have own := foreign_ entry mem_cons_self
    have next : Apart requestId taskIds (first.perform entry.1 entry.2).store := own.1.apart apart
    obtain ⟨later, same⟩ := ih next fun other inside =>
      foreign_ other (mem_cons_of_mem _ inside)
    exact ⟨later, own.same.trans same⟩

theorem Elsewhere.keeps (elsewhere : Elsewhere requestId taskIds first second)
    (apart : Apart requestId taskIds first.store) :
    Apart requestId taskIds second.store ∧
      SameIdentity requestId taskIds first.store second.store := by
  obtain ⟨writes, rfl, foreign_⟩ := elsewhere apart
  exact foreign_performAll apart writes foreign_

theorem Elsewhere.refl (state : QueueState) : Elsewhere requestId taskIds state state :=
  fun _ => ⟨[], rfl, by simp⟩

theorem Elsewhere.trans (left : Elsewhere requestId taskIds first second)
    (right : Elsewhere requestId taskIds second third) : Elsewhere requestId taskIds first third := by
  intro apart
  have middle := (left.keeps apart).1
  obtain ⟨early, rfl, foreignEarly⟩ := left apart
  obtain ⟨late, rfl, foreignLate⟩ := right middle
  refine ⟨early ++ late, (first.performAll_append early late).symm, ?_⟩
  intro entry inside
  rcases mem_append.mp inside with soon | later
  · exact foreignEarly entry soon
  · exact foreignLate entry later

theorem Elsewhere.perform (state : QueueState) (writer : Writer) {write : Write}
    (foreign_ : Foreign requestId taskIds write) :
    Elsewhere requestId taskIds state (state.perform writer write) :=
  fun _ => ⟨[(writer, write)], rfl, by simpa using foreign_⟩

theorem Elsewhere.foldl {α : Type} (body : QueueState → α → QueueState) (items : List α)
    (each : ∀ item ∈ items, ∀ state, Elsewhere requestId taskIds state (body state item))
    (state : QueueState) : Elsewhere requestId taskIds state (items.foldl body state) := by
  induction items generalizing state with
  | nil => exact .refl state
  | cons item rest ih =>
    exact (each item mem_cons_self state).trans (ih
      (fun other inside => each other (mem_cons_of_mem _ inside)) (body state item))

/-- A property of the records of the request holds throughout foreign writes. -/
theorem Elsewhere.throughout {phase : Store → Prop}
    (closed : ∀ store other, SameIdentity requestId taskIds store other → phase store → phase other)
    (elsewhere : Elsewhere requestId taskIds first second)
    (apart : Apart requestId taskIds first.store) (start : phase first.store) :
    Throughout (fun store => Apart requestId taskIds store ∧ phase store) first second := by
  obtain ⟨writes, shape, foreign_⟩ := elsewhere apart
  refine ⟨writes, shape, ?_⟩
  intro count
  obtain ⟨stillApart, same⟩ := foreign_performAll apart (writes.take count) fun entry inside =>
    foreign_ entry (mem_of_mem_take inside)
  exact ⟨stillApart, closed _ _ same start⟩

end Elsewhere

/-! ## Phases of a request -/

/-- Nothing of the request is there. -/
def Absent (requestId : String) (taskIds : List String) (store : Store) : Prop :=
  store.requests[requestId]? = none ∧ store.idempotency[requestId]? = none ∧
    ∀ taskId ∈ taskIds, store.tasks[taskId]? = none

/-- The request is there and not ready. -/
def Begun (requestId : String) (taskIds : List String) (store : Store) : Prop :=
  store.idempotency[requestId]? = none ∧ ∃ request, store.requests[requestId]? = some request ∧
    request.ready = false ∧ request.taskIds = taskIds

/-- A task as it was created, or failed because its deadline has passed by some time. -/
def Unclaimed (deadline time : Int) (task : TaskRecord) : Prop :=
  task.task.deadlineMs = deadline ∧ (task.state = .queued ∨
    task.state = .failed ∧ task.lastError = "deadline_expired" ∧ task.deadlinePassed time = true)

/-- The request is ready and has all its tasks. -/
structure Whole (requestId : String) (taskIds : List String) (deadline time : Int)
    (store : Store) : Prop where
  request : ∃ request, store.requests[requestId]? = some request ∧ request.ready = true ∧
    request.taskIds = taskIds ∧ request.published = false
  idempotency : store.idempotency[requestId]? = none ∨
    store.idempotency[requestId]? = some requestId
  tasks : ∀ taskId ∈ taskIds, ∃ task, store.tasks[taskId]? = some task ∧
    Unclaimed deadline time task

/-- The request is in one of its phases. -/
def InPhase (requestId : String) (taskIds : List String) (deadline time : Int) (store : Store) :
    Prop :=
  Absent requestId taskIds store ∨ Begun requestId taskIds store ∨
    Whole requestId taskIds deadline time store

/-- The other records are apart and the request is in one of its phases. -/
def Consistent (requestId : String) (taskIds : List String) (deadline time : Int) (store : Store) :
    Prop :=
  Apart requestId taskIds store ∧ InPhase requestId taskIds deadline time store

section Phases

variable {deadline time : Int} {store other : Store}

/-- The request is ready, has all its tasks and is remembered. -/
def Recreated (requestId : String) (taskIds : List String) (deadline time : Int) (store : Store) :
    Prop :=
  Whole requestId taskIds deadline time store ∧ store.idempotency[requestId]? = some requestId

/-- Nothing of the request is there, or it is ready, complete and remembered. -/
def Decided (requestId : String) (taskIds : List String) (deadline time : Int) (store : Store) :
    Prop :=
  Absent requestId taskIds store ∨ Recreated requestId taskIds deadline time store

/-- No waiting task of the request is past its deadline. -/
def Timely (taskIds : List String) (now : Int) (store : Store) : Prop :=
  ∀ taskId ∈ taskIds, ∀ task, store.tasks[taskId]? = some task →
    task.waitingPastDeadline now = false

section

variable (same : SameIdentity requestId taskIds store other)
include same

theorem Absent.of_same (absent : Absent requestId taskIds store) :
    Absent requestId taskIds other := by
  obtain ⟨request, idempotency, tasks⟩ := absent
  exact ⟨same.request.trans request, same.idempotency.trans idempotency,
    fun taskId inside => (same.tasks taskId inside).trans (tasks taskId inside)⟩

theorem Begun.of_same (begun : Begun requestId taskIds store) : Begun requestId taskIds other := by
  obtain ⟨idempotency, request, stored, rest⟩ := begun
  exact ⟨same.idempotency.trans idempotency, request, same.request.trans stored, rest⟩

theorem Whole.of_same (whole : Whole requestId taskIds deadline time store) :
    Whole requestId taskIds deadline time other := by
  constructor
  · rw [same.request]
    exact whole.request
  · rw [same.idempotency]
    exact whole.idempotency
  · intro taskId inside
    rw [same.tasks taskId inside]
    exact whole.tasks taskId inside

theorem InPhase.of_same (phase : InPhase requestId taskIds deadline time store) :
    InPhase requestId taskIds deadline time other := by
  rcases phase with absent | begun | whole
  · exact .inl (absent.of_same same)
  · exact .inr (.inl (begun.of_same same))
  · exact .inr (.inr (whole.of_same same))

theorem Recreated.of_same (recreated : Recreated requestId taskIds deadline time store) :
    Recreated requestId taskIds deadline time other :=
  ⟨recreated.1.of_same same, same.idempotency.trans recreated.2⟩

theorem Decided.of_same (decided : Decided requestId taskIds deadline time store) :
    Decided requestId taskIds deadline time other := by
  rcases decided with absent | recreated
  · exact .inl (absent.of_same same)
  · exact .inr (recreated.of_same same)

theorem Timely.of_same (timely : Timely taskIds time store) : Timely taskIds time other := by
  intro taskId inside task stored
  rw [same.tasks taskId inside] at stored
  exact timely taskId inside task stored

end

theorem Unclaimed.mono {later : Int} (order : time ≤ later)
    (unclaimed : Unclaimed deadline time task) : Unclaimed deadline later task := by
  obtain ⟨own, queued | ⟨failed, reason, passed⟩⟩ := unclaimed
  · exact ⟨own, .inl queued⟩
  · refine ⟨own, .inr ⟨failed, reason, ?_⟩⟩
    simp only [TaskRecord.deadlinePassed, decide_eq_true_eq] at passed ⊢
    exact ⟨passed.1, passed.2.trans order⟩

theorem Consistent.mono {later : Int} (order : time ≤ later)
    (consistent : Consistent requestId taskIds deadline time store) :
    Consistent requestId taskIds deadline later store := by
  obtain ⟨apart, absent | begun | whole⟩ := consistent
  · exact ⟨apart, .inl absent⟩
  · exact ⟨apart, .inr (.inl begun)⟩
  · refine ⟨apart, .inr (.inr ⟨whole.request, whole.idempotency, ?_⟩)⟩
    intro taskId inside
    obtain ⟨task, stored, unclaimed⟩ := whole.tasks taskId inside
    exact ⟨task, stored, unclaimed.mono order⟩

end Phases

end Identity

/-! ## Creation -/

section Creation

variable {env : Environment} {settings : Settings} {state : QueueState} {call : CreateCall}

/-- The records of other requests are apart from those that a call creates. -/
abbrev CallApart (env : Environment) (call : CreateCall) : Store → Prop :=
  Apart (env.hash call.identity) (createdRequest env call).taskIds

/-- The phases of the request that a call creates. -/
abbrev CallConsistent (env : Environment) (call : CreateCall) : Int → Store → Prop :=
  Consistent (env.hash call.identity) (createdRequest env call).taskIds call.deadlineMs

/-- In a run of completed calls, an identity that is not remembered has no records. -/
theorem run_apart (env : Environment) (settings : Settings) (operations : List Operation)
    (call : CreateCall)
    (fresh : (run env settings operations).store.idempotency[env.hash call.identity]? = none) :
    CallApart env call (run env settings operations).store ∧
      Absent (env.hash call.identity) (createdRequest env call).taskIds
        (run env settings operations).store := by
  have owned : Owned env (run env settings operations).store := run_owned operations
  have unused : ∀ taskId ∈ (createdRequest env call).taskIds,
      (run env settings operations).store.tasks[taskId]? = none := by
    intro taskId inside
    obtain ⟨work, _, rfl⟩ := mem_map.mp inside
    exact owned.unused call fresh work
  have unlisted : ∀ (taskId : String) (task : TaskRecord),
      (run env settings operations).store.tasks[taskId]? = some task →
        taskId ∉ (createdRequest env call).taskIds := by
    intro taskId task stored inside
    rw [unused taskId inside] at stored
    cases stored
  refine ⟨⟨owned.requestKey, ?_, owned.taskKey, ?_, ?_⟩, ?_, fresh, unused⟩
  · intro key request stored _ taskId inside
    obtain ⟨task, found, _⟩ := (run_intact env settings operations).listed key request stored
      taskId inside
    exact unlisted taskId task found
  · intro key task stored
    exact iff_of_false (owned.childless fresh key task stored) (unlisted key task stored)
  · intro key answer found
    obtain ⟨task, stored, _⟩ := run_answered env settings operations key answer found
    exact unlisted key.name task stored
  · cases stored : (run env settings operations).store.requests[env.hash call.identity]? with
    | none => rfl
    | some request =>
      rw [owned.remembered _ _ stored] at fresh
      cases fresh

/-- The request of the call is written and not yet ready. -/
def CallBegun (env : Environment) (call : CreateCall) (store : Store) : Prop :=
  CallApart env call store ∧ Begun (env.hash call.identity) (createdRequest env call).taskIds store

/-- The task writes of a creation keep the request unready. -/
theorem creation_tasks (settings : Settings) (state : QueueState)
    (start : CallBegun env call state.store) :
    Throughout (CallBegun env call) state
      ((call.tasks.map (createdTask env settings call)).foldl (fun current task =>
        current.perform .createRequest (.task task.taskId (some task))) state) := by
  refine .foldl _ _ ?_ state start
  intro task created current begun
  obtain ⟨work, inside, rfl⟩ := mem_map.mp created
  have named : (createdTask env settings call work).taskId ∈ (createdRequest env call).taskIds :=
    mem_map.mpr ⟨work, inside, rfl⟩
  have fits : Fitting (env.hash call.identity) (createdRequest env call).taskIds
      (.task (createdTask env settings call work).taskId
        (some (createdTask env settings call work))) := by
    rintro task ⟨⟩
    exact ⟨rfl, iff_of_true rfl named⟩
  exact .perform begun (.createRequest, _) ⟨fits.apart begun.1, begun.2⟩

/-- A creation after its first write. -/
def announced (env : Environment) (call : CreateCall) (state : QueueState) : QueueState :=
  state.perform .createRequest (.request (env.hash call.identity) (some (createdRequest env call)))

/-- A creation after the writes of its tasks. -/
def filled (env : Environment) (settings : Settings) (call : CreateCall) (state : QueueState) :
    QueueState :=
  (call.tasks.map (createdTask env settings call)).foldl (fun current task =>
    current.perform .createRequest (.task task.taskId (some task))) (announced env call state)

/-- Every task of the call is stored by then. -/
theorem filled_tasks (settings : Settings) (time : Int) (state : QueueState) {taskId : String}
    (inside : taskId ∈ (createdRequest env call).taskIds) :
    ∃ task, (filled env settings call state).store.tasks[taskId]? = some task ∧
      Unclaimed call.deadlineMs time task := by
  obtain ⟨work, member, rfl⟩ := mem_map.mp inside
  rcases getElem?_writeRequest env settings call state (taskIdOf env (env.hash call.identity) work)
    with ⟨_, _, _, found⟩ | ⟨others, _⟩
  · exact ⟨_, found, rfl, .inl rfl⟩
  · exact absurd rfl (others work member)

/-- A creation passes through the phases of its request. -/
theorem creation_throughout (settings : Settings) (time : Int)
    (apart : CallApart env call state.store)
    (absent : Absent (env.hash call.identity) (createdRequest env call).taskIds state.store) :
    Throughout (CallConsistent env call time) state (writeRequest env settings call state) := by
  have fits : ∀ ready, Fitting (env.hash call.identity) (createdRequest env call).taskIds
      (.request (env.hash call.identity) (some { createdRequest env call with ready := ready })) := by
    rintro ready request ⟨⟩
    exact ⟨rfl, rfl, fun different => absurd rfl different⟩
  have begun : CallBegun env call (announced env call state).store :=
    ⟨(fits false).apart apart, absent.2.1, _, getElem?_assign_self _ _ _, rfl, rfl⟩
  have unready : ∀ store, CallBegun env call store → CallConsistent env call time store :=
    fun store both => ⟨both.1, .inr (.inl both.2)⟩
  have first : Throughout (CallConsistent env call time) state (announced env call state) :=
    .perform ⟨apart, .inl absent⟩ (.createRequest, _) (unready _ begun)
  have tasks : Throughout (CallBegun env call) (announced env call state)
      (filled env settings call state) :=
    creation_tasks settings _ begun
  have stored := fun taskId inside => @filled_tasks env call settings time state taskId inside
  have ready : CallConsistent env call time ((filled env settings call state).perform .createRequest
      (.request (env.hash call.identity) (some { createdRequest env call with ready := true }))).store :=
    ⟨(fits true).apart tasks.last.1, .inr (.inr
      ⟨⟨_, getElem?_assign_self _ _ _, rfl, rfl, rfl⟩, .inl tasks.last.2.1, stored⟩)⟩
  refine (first.trans (tasks.mono unready)).trans
    ((Throughout.perform (unready _ tasks.last) (.createRequest, .request (env.hash call.identity)
      (some { createdRequest env call with ready := true })) ready).trans
        (.perform ready (.createRequest, _) ⟨?_, Or.inr (.inr ⟨?_, ?_, stored⟩)⟩))
  · exact Fitting.apart trivial ready.1
  · exact ⟨_, getElem?_assign_self _ _ _, rfl, rfl, rfl⟩
  · exact .inr (getElem?_assign_self _ _ _)

end Creation

/-! ## Recovery of the requests -/

section Recovery

variable {requestId : String} {taskIds : List String} {deadline time : Int} {state : QueueState}

variable {request : RequestRecord}

/-- Visiting another request touches nothing of this one. -/
theorem recoverRequest_elsewhere (clock : RecoverClock) (different : request.requestId ≠ requestId)
    (named : request.idempotencyKey = request.requestId)
    (disjoint : ∀ taskId ∈ request.taskIds, taskId ∉ taskIds) (state : QueueState) :
    Elsewhere requestId taskIds state (recoverRequest clock request state) := by
  have remembered : ∀ (current : QueueState) (value : Option String),
      Elsewhere requestId taskIds current
        (current.perform .recover (.idempotency request.idempotencyKey value)) := by
    intro current value
    refine .perform current .recover ⟨trivial, ?_⟩
    rw [named]
    exact different
  unfold recoverRequest
  split
  · refine .trans ?_ (remembered _ _)
    unfold markMissing
    split
    · refine .perform state .recover ⟨?_, different⟩
      rintro written ⟨⟩
      exact ⟨rfl, named, fun _ => disjoint⟩
    · exact .refl state
  · refine .trans (.trans ?_ (.perform _ .recover ⟨?_, different⟩))
      (remembered _ _)
    · refine .foldl _ _ ?_ state
      intro taskId inside current
      refine .perform current .recover ⟨?_, disjoint taskId inside⟩
      rintro task ⟨⟩
    · rintro written ⟨⟩

section

variable (clock : RecoverClock) (apart : Apart requestId taskIds state.store)
include apart

/-- The request loop over copies of other requests touches nothing of this one. -/
theorem recoverRequests_elsewhere (requests : List RequestRecord)
    (copies : ∀ request ∈ requests, request ∈ listing state.store.requests)
    (others : ∀ request ∈ requests, request.requestId ≠ requestId) (current : QueueState) :
    Elsewhere requestId taskIds current
      (requests.foldl (fun inner request => recoverRequest clock request inner) current) := by
  refine .foldl _ _ ?_ current
  intro request inside inner
  obtain ⟨key, stored⟩ := (mem_listing _ _).mp (copies request inside)
  obtain ⟨named, remembered⟩ := apart.requestKey key request stored
  refine recoverRequest_elsewhere clock (others request inside) (remembered.trans named.symm) ?_
    inner
  refine apart.listed key request stored ?_
  rw [← named]
  exact others request inside

/-- The request loop visits the request once, between visits to others. -/
theorem recoverRequests_split
    (stored : state.store.requests[requestId]? = some request) :
    ∃ middle, Elsewhere requestId taskIds state middle ∧
      Elsewhere requestId taskIds (recoverRequest clock request middle)
        ((listing state.store.requests).foldl
          (fun current visited => recoverRequest clock visited current) state) := by
  have named := (apart.requestKey requestId request stored).1
  obtain ⟨early, late, shape⟩ :=
    append_of_mem ((mem_listing _ _).mpr ⟨requestId, stored⟩)
  have distinct := listing_pairwise state.store.requests RequestRecord.requestId
    fun key other found => (apart.requestKey key other found).1
  rw [shape] at distinct
  obtain ⟨_, afterwards, across⟩ := pairwise_append.mp distinct
  have copies : ∀ other ∈ early ++ request :: late, other ∈ listing state.store.requests :=
    fun other inside => shape ▸ inside
  refine ⟨_, recoverRequests_elsewhere clock apart early
    (fun other inside => copies other (mem_append_left _ inside)) ?_ state, ?_⟩
  · intro other inside
    have unequal := across other inside request mem_cons_self
    rwa [named] at unequal
  · rw [shape, foldl_append, foldl_cons]
    refine recoverRequests_elsewhere clock apart late (fun other inside =>
      copies other (mem_append_right _ (mem_cons_of_mem _ inside))) ?_ _
    intro other inside
    have unequal := (pairwise_cons.mp afterwards).1 other inside
    rw [named] at unequal
    exact unequal.symm

/-- Deleting the tasks of a request that is not ready leaves it so, without tasks. -/
theorem deleteTasks_begun (names : List String) (begun : Begun requestId taskIds state.store) :
    Throughout (fun store => Apart requestId taskIds store ∧ Begun requestId taskIds store) state
        (deleteTasks .recover names state) ∧
      ∀ taskId ∈ names, (deleteTasks .recover names state).store.tasks[taskId]? = none := by
  constructor
  · refine .foldl _ _ ?_ state ⟨apart, begun⟩
    intro name _ current start
    have fits : Fitting requestId taskIds (.task name none) := by
      rintro task ⟨⟩
    exact .perform start (.recover, .task name none) ⟨fits.apart start.1, start.2⟩
  · intro taskId inside
    rcases entries_after_writes Store.tasks (fun current name => current.perform .recover
      (.task name none)) id (fun _ => none) (fun _ _ => rfl) names state taskId with
      ⟨_, _, _, removed⟩ | ⟨others, _⟩
    · exact removed
    · exact absurd rfl (others taskId inside)

/-- Visiting a request that is not ready removes it. -/
theorem recoverRequest_begun (begun : Begun requestId taskIds state.store)
    (stored : state.store.requests[requestId]? = some request) :
    Throughout (Consistent requestId taskIds deadline time) state
        (recoverRequest clock request state) ∧
      Absent requestId taskIds (recoverRequest clock request state).store := by
  obtain ⟨named, remembered⟩ := apart.requestKey requestId request stored
  obtain ⟨found, _, present, unready, tasks⟩ := begun
  cases stored.symm.trans present
  obtain ⟨deleting, deleted⟩ := deleteTasks_begun apart taskIds
    ⟨found, request, stored, unready, tasks⟩
  rw [recoverRequest, if_neg (by simp [unready]), tasks, named, remembered]
  have middle := deleting.last
  generalize deleteTasks .recover taskIds state = emptied at deleting deleted middle ⊢
  have unlisted : Fitting requestId taskIds (.request requestId none) := by
    rintro written ⟨⟩
  have absent : Absent requestId taskIds
      (emptied.perform .recover (.request requestId none)).store :=
    ⟨getElem?_assign_self _ _ _, middle.2.1, deleted⟩
  have removed := And.intro (unlisted.apart middle.1) absent
  have forgotten : Absent requestId taskIds ((emptied.perform .recover
      (.request requestId none)).perform .recover (.idempotency requestId none)).store :=
    ⟨absent.1, getElem?_assign_self _ _ _, deleted⟩
  refine ⟨?_, forgotten⟩
  refine (deleting.mono fun store both => ⟨both.1, .inr (.inl both.2)⟩).trans ?_
  refine (Throughout.perform ⟨middle.1, .inr (.inl middle.2)⟩ (.recover, _)
    ⟨removed.1, .inl removed.2⟩).trans ?_
  exact .perform ⟨removed.1, .inl removed.2⟩ (.recover, _)
    ⟨Fitting.apart trivial removed.1, Or.inl forgotten⟩

/-- Visiting a ready request that has its tasks remembers it. -/
theorem recoverRequest_whole (whole : Whole requestId taskIds deadline time state.store)
    (stored : state.store.requests[requestId]? = some request) :
    Throughout (Consistent requestId taskIds deadline time) state
        (recoverRequest clock request state) ∧
      Recreated requestId taskIds deadline time (recoverRequest clock request state).store := by
  obtain ⟨named, remembered⟩ := apart.requestKey requestId request stored
  obtain ⟨_, present, ready, tasks, _⟩ := whole.request
  cases stored.symm.trans present
  have complete : ¬∃ taskId ∈ request.taskIds, state.store.tasks[taskId]? = none := by
    rintro ⟨taskId, inside, missing⟩
    rw [tasks] at inside
    obtain ⟨task, found, _⟩ := whole.tasks taskId inside
    rw [missing] at found
    cases found
  rw [recoverRequest, if_pos ready, markMissing, if_neg complete, named, remembered]
  have recreated : Recreated requestId taskIds deadline time (state.perform .recover
      (.idempotency requestId (some requestId))).store :=
    ⟨⟨whole.request, .inr (getElem?_assign_self _ _ _), whole.tasks⟩,
      getElem?_assign_self _ _ _⟩
  exact ⟨.perform ⟨apart, .inr (.inr whole)⟩
    (.recover, .idempotency requestId (some requestId))
    ⟨Fitting.apart trivial apart, .inr (.inr recreated.1)⟩, recreated⟩

end

/-- Foreign writes keep the phase. -/
theorem Elsewhere.consistent {first second : QueueState}
    (elsewhere : Elsewhere requestId taskIds first second)
    (consistent : Consistent requestId taskIds deadline time first.store) :
    Throughout (Consistent requestId taskIds deadline time) first second :=
  elsewhere.throughout (fun _ _ same phase => phase.of_same same) consistent.1 consistent.2

/-- The request loop of `recover` decides the fate of the request. A request that is kept
was ready when the loop listed the requests. -/
theorem recoverRequests_decides (clock : RecoverClock)
    (consistent : Consistent requestId taskIds deadline time state.store) :
    let settled := (listing state.store.requests).foldl
      (fun current request => recoverRequest clock request current) state
    Throughout (Consistent requestId taskIds deadline time) state settled ∧
      (Absent requestId taskIds settled.store ∨
        Recreated requestId taskIds deadline time settled.store ∧
          requestId ∈ ((listing state.store.requests).filter RequestRecord.ready).map
            RequestRecord.requestId) := by
  obtain ⟨apart, phase⟩ := consistent
  rcases phase with absent | begun | whole
  · have elsewhere := recoverRequests_elsewhere clock apart (listing state.store.requests)
      (fun _ member => member) (by
        rintro request member rfl
        obtain ⟨key, stored⟩ := (mem_listing _ _).mp member
        obtain rfl := (apart.requestKey key request stored).1
        cases stored.symm.trans absent.1) state
    exact ⟨elsewhere.consistent ⟨apart, .inl absent⟩,
      .inl (absent.of_same (elsewhere.keeps apart).2)⟩
  · obtain ⟨_, request, stored, _⟩ := id begun
    obtain ⟨middle, before, after⟩ := recoverRequests_split clock apart stored
    obtain ⟨apartMiddle, same⟩ := before.keeps apart
    obtain ⟨visit, absent⟩ := @recoverRequest_begun requestId taskIds deadline time middle request
      clock apartMiddle (begun.of_same same) (same.request.trans stored)
    refine ⟨?_, .inl (absent.of_same (after.keeps visit.last.1).2)⟩
    exact ((before.consistent ⟨apart, .inr (.inl begun)⟩).trans visit).trans
      (after.consistent visit.last)
  · obtain ⟨request, stored, ready, _⟩ := whole.request
    obtain ⟨middle, before, after⟩ := recoverRequests_split clock apart stored
    obtain ⟨apartMiddle, same⟩ := before.keeps apart
    obtain ⟨visit, recreated⟩ := recoverRequest_whole clock apartMiddle (whole.of_same same)
      (same.request.trans stored)
    refine ⟨?_, Or.inr ⟨recreated.of_same (after.keeps visit.last.1).2, ?_⟩⟩
    · exact ((before.consistent ⟨apart, Or.inr (.inr whole)⟩).trans visit).trans
        (after.consistent visit.last)
    · refine mem_map.mpr ⟨request, mem_filter.mpr ⟨?_, ready⟩,
        (apart.requestKey requestId request stored).1⟩
      exact (mem_listing _ _).mpr ⟨requestId, stored⟩

/-! ## Recovery of the tasks -/

/-- A copy of a task, read from a store in which the records of the request are apart. -/
theorem Apart.copy (apart : Apart requestId taskIds store) (member : task ∈ store.listTasks) :
    store.tasks[task.taskId]? = some task ∧ (task.requestId = requestId ↔ task.taskId ∈ taskIds) := by
  obtain ⟨key, stored⟩ := (mem_listing _ _).mp member
  obtain rfl := apart.taskKey key task stored
  exact ⟨stored, apart.owner _ task stored⟩

/-- Writing a version of a task of another request is foreign. -/
theorem foreign_task {version : TaskRecord} (outside : task.taskId ∉ taskIds)
    (owner : task.requestId = requestId ↔ task.taskId ∈ taskIds)
    (named : version.taskId = task.taskId) (owned : version.requestId = task.requestId) :
    Foreign requestId taskIds (.task task.taskId (some version)) := by
  refine ⟨?_, outside⟩
  rintro written ⟨⟩
  rw [owned]
  exact ⟨named, owner⟩

/-- The task loop of `recover` touches nothing of a request whose fate is decided. -/
theorem recoverTasks_elsewhere (clock : RecoverClock) {kept : List String}
    (apart : Apart requestId taskIds state.store)
    (decided : Absent requestId taskIds state.store ∨
      Recreated requestId taskIds deadline time state.store ∧ requestId ∈ kept) :
    Elsewhere requestId taskIds state (state.store.listTasks.foldl
      (fun current task => recoverTask clock kept task current) state) := by
  refine .foldl _ _ ?_ state
  intro task member current
  obtain ⟨stored, owner⟩ := apart.copy member
  by_cases inside : task.taskId ∈ taskIds
  · rcases decided with absent | ⟨recreated, member⟩
    · rw [absent.2.2 _ inside] at stored
      cases stored
    · obtain ⟨_, found, _, unclaimed⟩ := recreated.1.tasks _ inside
      cases stored.symm.trans found
      have settled : task.state ≠ .expired := by
        rcases unclaimed with queued | ⟨failed, _⟩
        · simp [queued]
        · simp [failed]
      rw [recoverTask, if_neg (not_not.mpr (owner.mpr inside ▸ member)), if_neg settled]
      exact .refl current
  · unfold recoverTask
    split
    · refine .trans ?_ (.perform _ .recover ⟨?_, inside⟩)
      · refine .foldl _ _ ?_ current
        intro key _ inner
        exact .perform inner .recover ⟨rfl, trivial⟩
      · rintro written ⟨⟩
    · split
      · exact .perform current .recover (foreign_task inside owner rfl rfl)
      · exact .refl current

/-- Writing an unclaimed version of one of its tasks keeps a request that is ready. -/
theorem Recreated.put (recreated : Recreated requestId taskIds deadline time store)
    (taskId : String) (unclaimed : Unclaimed deadline time task) :
    Recreated requestId taskIds deadline time (store.apply (.task taskId (some task))) := by
  refine ⟨⟨recreated.1.request, recreated.1.idempotency, ?_⟩, recreated.2⟩
  intro other inside
  by_cases same : taskId = other
  · refine ⟨task, ?_, unclaimed⟩
    rw [same]
    exact getElem?_assign_self _ _ _
  · obtain ⟨found, stored, rest⟩ := recreated.1.tasks other inside
    exact ⟨found, (getElem?_assign_of_ne _ _ same).trans stored, rest⟩

/-- Expiring a task of another request touches nothing of this one. -/
theorem expireTask_elsewhere (now : Int) (outside : task.taskId ∉ taskIds)
    (owner : task.requestId = requestId ↔ task.taskId ∈ taskIds) (current : QueueState) :
    Elsewhere requestId taskIds current (expireTask now task current) := by
  have written : ∀ (inner : QueueState) (version : TaskRecord), version.taskId = task.taskId →
      version.requestId = task.requestId → Elsewhere requestId taskIds inner
        (inner.perform .expireClaims (.task task.taskId (some version))) :=
    fun inner _ named owned =>
      .perform inner .expireClaims (foreign_task outside owner named owned)
  unfold expireTask
  split
  · exact written current _ rfl rfl
  · split
    · exact (written current (claimExpired now task) rfl rfl).trans (written _ _ rfl rfl)
    · exact .refl current

/-- Expiring an unclaimed task of the request keeps the request ready and complete. -/
theorem expireTask_recreated (owner : task.requestId = requestId ↔ task.taskId ∈ taskIds)
    (unclaimed : Unclaimed deadline now task) (current : QueueState)
    (start : Apart requestId taskIds current.store ∧
      Recreated requestId taskIds deadline now current.store) :
    Throughout (fun store => Apart requestId taskIds store ∧
      Recreated requestId taskIds deadline now store) current (expireTask now task current) := by
  unfold expireTask
  split
  · next due =>
    have passed : task.deadlinePassed now = true := by
      simp only [TaskRecord.waitingPastDeadline, decide_eq_true_eq] at due
      exact due.2
    have fits : Fitting requestId taskIds
        (.task task.taskId (some (deadlineExpired now task))) := by
      rintro written ⟨⟩
      exact ⟨rfl, owner⟩
    exact .perform start (.expireClaims, _) ⟨fits.apart start.1,
      start.2.put _ ⟨unclaimed.1, .inr ⟨rfl, rfl, passed⟩⟩⟩
  · have unheld : task.claimLapsed now = false := by
      rcases unclaimed.2 with queued | ⟨failed, _⟩
      · simp [TaskRecord.claimLapsed, queued]
      · simp [TaskRecord.claimLapsed, failed]
    rw [if_neg (by simp [unheld])]
    exact .refl start

/-- The loop of `expire_claims` keeps the fate of the request. -/
theorem expireTasks_decided (apart : Apart requestId taskIds state.store)
    (decided : Decided requestId taskIds deadline now state.store) :
    Throughout (fun store => Apart requestId taskIds store ∧
        Decided requestId taskIds deadline now store) state
      (state.store.listTasks.foldl (fun current task => expireTask now task current) state) := by
  rcases decided with absent | recreated
  · refine Elsewhere.throughout (fun _ _ same kept => kept.of_same same) ?_ apart (.inl absent)
    refine .foldl _ _ ?_ state
    intro task member current
    obtain ⟨stored, owner⟩ := apart.copy member
    refine expireTask_elsewhere now ?_ owner current
    intro inside
    cases stored.symm.trans (absent.2.2 _ inside)
  · suffices loop : Throughout (fun store => Apart requestId taskIds store ∧
        Recreated requestId taskIds deadline now store) state _ from
      loop.mono fun store both => ⟨both.1, .inr both.2⟩
    refine .foldl _ _ ?_ state ⟨apart, recreated⟩
    intro task member current start
    obtain ⟨stored, owner⟩ := apart.copy member
    by_cases inside : task.taskId ∈ taskIds
    · obtain ⟨_, found, unclaimed⟩ := recreated.1.tasks _ inside
      cases stored.symm.trans found
      exact expireTask_recreated owner unclaimed current start
    · exact (expireTask_elsewhere now inside owner current).throughout
        (fun _ _ same kept => kept.of_same same) start.1 start.2

/-- The record that `expire_claims` leaves of a task. -/
def expiredVersion (now : Int) (task : TaskRecord) : TaskRecord :=
  if task.waitingPastDeadline now then deadlineExpired now task
  else if task.claimLapsed now then
    expirySettled (expiryTarget now task) (claimExpired now task)
  else task

theorem expiredVersion_timely (now : Int) (task : TaskRecord) :
    (expiredVersion now task).waitingPastDeadline now = false := by
  unfold expiredVersion
  split
  · rfl
  · next timely =>
    split
    · by_cases passed : task.deadlinePassed now = true
      · rw [expiryTarget, if_pos (.inr passed)]
        rfl
      · exact decide_eq_false fun waiting => passed waiting.2
    · simpa using timely

/-- After the loop of `expire_claims` no waiting task is past its deadline. -/
theorem expireTasks_timely (now : Int) (apart : Apart requestId taskIds state.store)
    {taskId : String}
    (stored : (state.store.listTasks.foldl (fun current other => expireTask now other current)
      state).store.tasks[taskId]? = some task) : task.waitingPastDeadline now = false := by
  rw [updatedTasks apart.taskKey (expireTask now) (expiredVersion now)
    (fun current task stored => by
      unfold expireTask expiredVersion
      split
      · exact getElem?_assign_self _ _ _
      · split
        · exact getElem?_assign_self _ _ _
        · exact stored)
    (expireTask_kept now)] at stored
  obtain ⟨earlier, _, rfl⟩ := Option.map_eq_some_iff.mp stored
  exact expiredVersion_timely now earlier

/-! ## Refreshing the requests -/

/-- Refreshing another request touches nothing of this one. -/
theorem refreshRequest_elsewhere (now : Int) {key : String} (different : key ≠ requestId)
    (state : QueueState) : Elsewhere requestId taskIds state (refreshRequest now key state) := by
  intro apart
  suffices elsewhere : Elsewhere requestId taskIds state (refreshRequest now key state) from
    elsewhere apart
  unfold refreshRequest
  split
  · exact .refl state
  · next request stored =>
    split
    · exact .refl state
    · refine .trans ?_ (.perform _ .refreshRequests ⟨?_, different⟩)
      · split
        · refine .foldl _ _ ?_ state
          intro task member current
          obtain ⟨taskId, listed, found⟩ := mem_filterMap.mp (mem_of_mem_filter member)
          obtain rfl := apart.taskKey taskId task found
          exact .perform current .refreshRequests (foreign_task
            (apart.listed key request stored different _ listed) (apart.owner _ task found)
            rfl rfl)
        · exact .refl state
      · rintro written ⟨⟩
        obtain ⟨named, remembered⟩ := apart.requestKey key request stored
        exact ⟨named, remembered, apart.listed key request stored⟩

/-- The tasks of a ready request share their deadline. So when one of them has failed on it
and none is waiting past it, all have failed. -/
theorem Recreated.all_failed (recreated : Recreated requestId taskIds deadline now store)
    (timely : Timely taskIds now store) (listed : request.taskIds = taskIds)
    (failed : ∃ task ∈ store.tasksOf request, task.state = .failed) :
    ∀ task ∈ store.tasksOf request, task.state = .failed := by
  have known : ∀ task ∈ store.tasksOf request,
      Unclaimed deadline now task ∧ task.waitingPastDeadline now = false := by
    intro task member
    obtain ⟨taskId, inside, stored⟩ := mem_filterMap.mp member
    rw [listed] at inside
    obtain ⟨_, found, unclaimed⟩ := recreated.1.tasks taskId inside
    cases stored.symm.trans found
    exact ⟨unclaimed, timely taskId inside task stored⟩
  obtain ⟨cause, causeMember, causeFailed⟩ := failed
  have passed : deadline ≠ 0 ∧ deadline ≤ now := by
    obtain ⟨⟨own, queued | ⟨_, _, expired⟩⟩, _⟩ := known cause causeMember
    · rw [queued] at causeFailed
      cases causeFailed
    · rw [← own]
      exact of_decide_eq_true expired
  intro task member
  obtain ⟨⟨own, queued | ⟨failed, _⟩⟩, waiting⟩ := known task member
  · refine absurd ?_ (of_decide_eq_false waiting)
    rw [queued]
    refine ⟨rfl, decide_eq_true ?_⟩
    rw [own]
    exact passed
  · exact failed

/-- Refreshing a ready request whose tasks are unclaimed keeps it ready and complete. -/
theorem refreshRequest_recreated (state : QueueState) (apart : Apart requestId taskIds state.store)
    (recreated : Recreated requestId taskIds deadline now state.store)
    (timely : Timely taskIds now state.store) :
    Throughout (fun store => Apart requestId taskIds store ∧
        Recreated requestId taskIds deadline now store ∧ Timely taskIds now store) state
      (refreshRequest now requestId state) := by
  obtain ⟨request, stored, ready, listed, unpublished⟩ := recreated.1.request
  simp only [refreshRequest, stored]
  split
  · exact .refl ⟨apart, recreated, timely⟩
  · have untouched : (if (refreshOutcome request (state.store.tasksOf request)).1 = .failed then
        cancelSiblings now (state.store.tasksOf request) state else state) = state := by
      split
      · next failed =>
        have all := recreated.all_failed timely listed (refreshOutcome_failed failed)
        have nothing : (state.store.tasksOf request).filter (fun task => !task.state.terminal) =
            [] := by
          rw [filter_eq_nil_iff]
          intro task member
          rw [all task member]
          decide
        rw [cancelSiblings, nothing, foldl_nil]
      · rfl
    rw [untouched]
    have fits : Fitting requestId taskIds (.request requestId (some
        { request with
          state := (refreshOutcome request (state.store.tasksOf request)).1
          error := (refreshOutcome request (state.store.tasksOf request)).2
          updatedAtMs := now })) := by
      rintro written ⟨⟩
      obtain ⟨named, remembered⟩ := apart.requestKey requestId request stored
      exact ⟨named, remembered, fun different => absurd rfl different⟩
    refine .perform ⟨apart, recreated, timely⟩ (.refreshRequests, _) ⟨fits.apart apart, ⟨⟨?_, ?_, ?_⟩, ?_⟩, ?_⟩
    · exact ⟨_, getElem?_assign_self _ _ _, ready, listed, unpublished⟩
    · exact recreated.1.idempotency
    · exact recreated.1.tasks
    · exact recreated.2
    · exact timely

/-- `_refresh_requests` keeps the fate of a request whose tasks are not past their deadline. -/
theorem refreshRequests_decided (apart : Apart requestId taskIds state.store)
    (decided : Decided requestId taskIds deadline now state.store)
    (timely : Timely taskIds now state.store) :
    Throughout (fun store => Apart requestId taskIds store ∧
      Decided requestId taskIds deadline now store) state (refreshRequests now state) := by
  suffices loop : Throughout (fun store => Apart requestId taskIds store ∧
      Decided requestId taskIds deadline now store ∧ Timely taskIds now store) state _ from
    loop.mono fun store all => ⟨all.1, all.2.1⟩
  refine .foldl _ _ ?_ state ⟨apart, decided, timely⟩
  rintro key _ current ⟨currentApart, currentDecided, currentTimely⟩
  by_cases same : key = requestId
  · subst same
    rcases currentDecided with absent | recreated
    · simp only [refreshRequest, absent.1]
      exact .refl ⟨currentApart, .inl absent, currentTimely⟩
    · exact (refreshRequest_recreated current currentApart recreated currentTimely).mono
        fun store all => ⟨all.1, .inr all.2.1, all.2.2⟩
  · exact (refreshRequest_elsewhere now same current).throughout
      (fun _ _ unchanged kept => ⟨kept.1.of_same unchanged, kept.2.of_same unchanged⟩)
      currentApart ⟨currentDecided, currentTimely⟩

/-- `recover` stays in the phases of the request throughout, and decides its fate. -/
theorem recover_decides {state : QueueState} (clock : RecoverClock) (order : time ≤ clock.expire)
    (consistent : Consistent requestId taskIds deadline time state.store) :
    Throughout (Consistent requestId taskIds deadline clock.expire) state (recover clock state).2 ∧
      Decided requestId taskIds deadline clock.expire (recover clock state).2.store := by
  obtain ⟨requestLoop, fate⟩ := recoverRequests_decides clock (consistent.mono order)
  have settled := requestLoop.last
  have taskLoop := recoverTasks_elsewhere clock settled.1 fate
  have decided : Decided requestId taskIds deadline clock.expire (recoverRecords clock state).store := by
    refine .of_same (taskLoop.keeps settled.1).2 ?_
    rcases fate with absent | ⟨recreated, _⟩
    · exact .inl absent
    · exact .inr recreated
  have records : Throughout (Consistent requestId taskIds deadline clock.expire) state
      (recoverRecords clock state) := requestLoop.trans (taskLoop.consistent settled)
  have expiry := expireTasks_decided records.last.1 decided
  have refreshing := refreshRequests_decided expiry.last.1 expiry.last.2
    fun taskId _ task stored => expireTasks_timely clock.expire records.last.1 stored
  have closing := expiry.trans refreshing
  exact ⟨records.trans (closing.mono fun store both => ⟨both.1, both.2.imp_right fun recreated => .inr recreated.1⟩),
    closing.last.2⟩

end Recovery

/-! ## Crashed creations -/

/-- No record of the identity of a call remains. -/
def Forgotten (env : Environment) (call : CreateCall) (store : Store) : Prop :=
  store.requests[env.hash call.identity]? = none ∧
    store.idempotency[env.hash call.identity]? = none ∧
    (∀ (taskId : String) (task : TaskRecord), store.tasks[taskId]? = some task →
      task.requestId ≠ env.hash call.identity ∧ taskId ∉ (createdRequest env call).taskIds) ∧
    ∀ (key : Versioned) (answer : ResultRecord), store.results[key]? = some answer →
      key.name ∉ (createdRequest env call).taskIds

/-- The request of a call is ready and remembered, and each of its tasks is queued or has
failed on a deadline that has passed. -/
def Ready (env : Environment) (call : CreateCall) (now : Int) (store : Store) : Prop :=
  (∃ request, store.requests[env.hash call.identity]? = some request ∧ request.ready = true ∧
    request.taskIds = (createdRequest env call).taskIds) ∧
  store.idempotency[env.hash call.identity]? = some (env.hash call.identity) ∧
  ∀ taskId ∈ (createdRequest env call).taskIds, ∃ task, store.tasks[taskId]? = some task ∧
    task.requestId = env.hash call.identity ∧ (task.state = .queued ∨
      task.state = .failed ∧ task.lastError = "deadline_expired" ∧ task.deadlinePassed now = true)

theorem Decided.outcome {env : Environment} {call : CreateCall}
    (decided : Decided (env.hash call.identity) (createdRequest env call).taskIds call.deadlineMs
      now store) (apart : CallApart env call store) :
    Forgotten env call store ∨ Ready env call now store := by
  rcases decided with absent | recreated
  · left
    refine ⟨absent.1, absent.2.1, ?_, apart.unanswered⟩
    intro taskId task stored
    have outside : taskId ∉ (createdRequest env call).taskIds := by
      intro inside
      cases stored.symm.trans (absent.2.2 taskId inside)
    exact ⟨fun own => outside ((apart.owner taskId task stored).mp own), outside⟩
  · right
    obtain ⟨request, stored, ready, listed, _⟩ := recreated.1.request
    refine ⟨⟨request, stored, ready, listed⟩, recreated.2, ?_⟩
    intro taskId inside
    obtain ⟨task, found, _, fate⟩ := recreated.1.tasks taskId inside
    exact ⟨task, found, (apart.owner taskId task found).mpr inside, fate⟩

/-- The state after recoveries that each crashed after a number of their writes. -/
def crashedRecoveries (env : Environment) (settings : Settings) (state : QueueState)
    (crashes : List (RecoverClock × Nat)) : QueueState :=
  crashes.foldl (fun current crash =>
    interrupted env settings current (.recover crash.1) crash.2) state

section Crashes

variable {env : Environment} {settings : Settings}

/-- Crashed recoveries stay in the phases of a request. -/
theorem crashedRecoveries_consistent {requestId : String} {taskIds : List String}
    {deadline time last : Int} (crashes : List (RecoverClock × Nat)) {state : QueueState}
    (consistent : Consistent requestId taskIds deadline time state.store)
    (ordered : (time :: (crashes.map (fun crash => crash.1.expire) ++ [last])).Pairwise (· ≤ ·)) :
    Consistent requestId taskIds deadline last
      (crashedRecoveries env settings state crashes).store := by
  induction crashes generalizing state time with
  | nil => exact consistent.mono (rel_of_pairwise_cons ordered (by simp))
  | cons crash rest ih =>
    have order : time ≤ crash.1.expire := rel_of_pairwise_cons ordered (by simp)
    have throughout := (recover_decides crash.1 order consistent).1
    exact ih (Throughout.interrupted (.recover crash.1) throughout crash.2)
      (pairwise_cons.mp ordered).2

/-- A crashed creation of a fresh identity leaves its request in one of the phases. -/
theorem crashed_creation_consistent (operations : List Operation) (call : CreateCall)
    (fresh : (run env settings operations).store.idempotency[env.hash call.identity]? = none)
    (count : Nat) (time : Int) :
    CallConsistent env call time
      (interrupted env settings (run env settings operations) (.createRequest call) count).store := by
  obtain ⟨apart, absent⟩ := run_apart env settings operations call fresh
  refine Throughout.interrupted (.createRequest call) ?_ count
  rcases createRequest_cases env settings call (run env settings operations) with
    same | ⟨_, written⟩
  · rw [execute, same]
    exact .refl ⟨apart, .inl absent⟩
  · rw [execute, written]
    exact creation_throughout settings time apart absent

end Crashes

/-- A `create_request` call for a fresh identity crashes after any number of its writes. Any
number of `recover` calls crash after any number of theirs, and then one completes. Either
nothing of the identity remains, or its request is ready. -/
theorem crashed_creation_recovered (env : Environment) (settings : Settings)
    (operations : List Operation) (call : CreateCall)
    (fresh : (run env settings operations).store.idempotency[env.hash call.identity]? = none)
    (count : Nat) (crashes : List (RecoverClock × Nat)) (clock : RecoverClock)
    (ordered : (crashes.map (fun crash => crash.1.expire) ++ [clock.expire]).Pairwise (· ≤ ·)) :
    let crashed := crashedRecoveries env settings
      (interrupted env settings (run env settings operations) (.createRequest call) count) crashes
    let final := (execute env settings crashed (.recover clock)).store
    Forgotten env call final ∨ Ready env call clock.expire final := by
  intro crashed final
  obtain ⟨time, earliest⟩ : ∃ time, ∀ reading ∈
      crashes.map (fun crash => crash.1.expire) ++ [clock.expire], time ≤ reading := by
    generalize crashes.map (fun crash => crash.1.expire) ++ [clock.expire] = readings at ordered
    cases readings with
    | nil => exact ⟨0, by simp⟩
    | cons first rest =>
      exact ⟨first, forall_mem_cons.mpr ⟨le_rfl, (pairwise_cons.mp ordered).1⟩⟩
  have consistent : CallConsistent env call clock.expire crashed.store :=
    crashedRecoveries_consistent crashes
      (crashed_creation_consistent operations call fresh count time)
      (pairwise_cons.mpr ⟨earliest, ordered⟩)
  obtain ⟨throughout, fate⟩ := recover_decides clock le_rfl consistent
  exact fate.outcome throughout.last.1

/-- A clock that shows one time during a recovery. -/
def steadyClock (now : Int) : RecoverClock :=
  ⟨fun _ => now, fun _ => now, fun _ => now, fun _ => now, now⟩

theorem crashed_creation_recovered_small :
    let settings := .clamped 60 3 1 60
    let call := smallRequest 1 "g" 1
    let crashed := crashedRecoveries .transparent settings
      (interrupted .transparent settings (run .transparent settings []) (.createRequest call) 2)
      [(steadyClock 5, 1)]
    let final := (execute .transparent settings crashed (.recover (steadyClock 7))).store
    Forgotten .transparent call final ∨ Ready .transparent call 7 final :=
  crashed_creation_recovered .transparent (.clamped 60 3 1 60) [] (smallRequest 1 "g" 1)
    (by simp [run]) 2 [(steadyClock 5, 1)] (steadyClock 7) (by decide)

end ShortcutProxy.WorkQueue
