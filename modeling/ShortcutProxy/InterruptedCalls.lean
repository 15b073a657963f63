import ShortcutProxy.TaskTransitions

/-!
# Calls that a failing store cuts short

When a write fails, the exception leaves the call at that point: the earlier writes are
durable, the later ones never happen, and the process goes on. `create_request` writes
the record that makes it idempotent last. A call that fails before that write leaves
tasks behind which can be claimed and completed, and which a repetition of the call
overwrites.

A run here is a sequence of calls that complete or fail at one of their writes. As long
as `create_request` writes nothing or everything, a repeated call finds the request.
-/
namespace ShortcutProxy.WorkQueue

open Contract Generation Records

/-! ## The writes of a call -/

/-- The writes that led from one state to a later one, oldest first. -/
def addedWrites (first second : QueueState) : List (Writer × Write) :=
  (second.journal.take (second.journal.length - first.journal.length)).reverse

theorem addedWrites_performAll (state : QueueState) (writes : List (Writer × Write)) :
    addedWrites state (state.performAll writes) = writes := by
  simp [addedWrites, QueueState.performAll_journal]

variable (env : Environment) (settings : Settings)

/-- What an operation leaves behind when it stops after some of its writes. -/
def interrupted (state : QueueState) (operation : Operation) (count : Nat) : QueueState :=
  state.performAll ((addedWrites state (execute env settings state operation)).take count)

/-- Writes that leave a task alone. -/
theorem performAll_kept (state : QueueState) (writes : List (Writer × Write)) {taskId : String}
    (apart : ∀ entry ∈ writes, ∀ record, entry.2 ≠ .task taskId record) :
    (state.performAll writes).store.tasks[taskId]? = state.store.tasks[taskId]? := by
  induction writes generalizing state with
  | nil => rfl
  | cons entry rest ih =>
    rw [QueueState.performAll_cons, ih _ fun other inside =>
      apart other (List.mem_cons_of_mem _ inside)]
    have untouched := apart entry List.mem_cons_self
    obtain ⟨writer, write⟩ := entry
    cases write with
    | task other record =>
      refine getElem?_assign_of_ne _ _ ?_
      rintro rfl
      exact untouched record rfl
    | _ => rfl

/-- The writes of a `create_request` call that finds no earlier request. -/
def creationWrites (call : CreateCall) :
    List (Writer × Write) :=
  (.createRequest, .request (env.hash call.identity) (some (createdRequest env call))) ::
    call.tasks.map (fun work => (.createRequest, .task (createdTask env settings call work).taskId
      (some (createdTask env settings call work)))) ++
    [(.createRequest, .request (env.hash call.identity)
        (some { createdRequest env call with ready := true })),
      (.createRequest, .idempotency (env.hash call.identity) (some (env.hash call.identity)))]

theorem writeRequest_eq_performAll (call : CreateCall) (state : QueueState) :
    writeRequest env settings call state = state.performAll (creationWrites env settings call) := by
  simp only [creationWrites, writeRequest, QueueState.performAll, List.cons_append,
    List.foldl_cons, List.foldl_append, List.foldl_map, List.foldl_nil]
  rfl

/-! ## Runs with failing writes -/

/-- A write that stores a record, as opposed to a deletion. -/
def Write.isPut : Write → Bool
  | .request _ record => record.isSome
  | .task _ record => record.isSome
  | .result _ record => record.isSome
  | .idempotency _ requestId => requestId.isSome
  | .object _ contents => contents.isSome
  | .coordinator record => record.isSome
  | .snapshot _ _ | .membership _ _ | .metadata _ _ => true

/-- A call that completes, or that fails when it has made so many writes. -/
inductive Call where
  | completed (operation : Operation)
  | failed (operation : Operation) (count : Nat)

/-- The state that a call leaves. -/
def Call.next (state : QueueState) : Call → QueueState
  | .completed operation => execute env settings state operation
  | .failed operation count => interrupted env settings state operation count

/-- A call can only fail at a write that it makes. -/
def Call.Possible (state : QueueState) : Call → Prop
  | .completed _ => True
  | .failed operation count => ∃ entry,
      (addedWrites state (execute env settings state operation))[count]? = some entry ∧
        entry.2.isPut = true

/-- A `create_request` call that fails has not written anything. -/
def Call.CreatesWhole : Call → Prop
  | .failed (.createRequest _) count => count = 0
  | _ => True

/-- The states of runs whose calls all meet a condition. -/
inductive FailingRun (env : Environment) (settings : Settings) (meets : Call → Prop) :
    QueueState → Prop
  | start : FailingRun env settings meets {}
  | step {state : QueueState} (call : Call) (earlier : FailingRun env settings meets state)
      (possible : call.Possible env settings state) (met : meets call) :
      FailingRun env settings meets (call.next env settings state)

section Cuts

variable {env : Environment} {settings : Settings} {permits : Permits} {state next : QueueState}

/-- An update other than a creation is one write, or two deletions. -/
theorem Update.single (update : Update env settings permits state next) {writers : List Writer}
    (adds : Adds writers state next) (others : .createRequest ∉ writers) :
    (∃ entry : Writer × Write, next = state.performAll [entry]) ∨
      ∃ first second : Writer × Write, next = state.performAll [first, second] ∧
        second.2.isPut = false := by
  cases update with
  | create call permitted absent =>
    obtain ⟨early, grown⟩ := @writeRequest_journal env settings call state
    exact absurd (adds.allowed grown _ List.mem_cons_self).1 others
  | forget writer requestId first second childless both =>
    refine .inr ⟨(writer, first), (writer, second), rfl, ?_⟩
    rcases both with ⟨_, rfl⟩ | ⟨_, rfl⟩
    · rfl
    · rfl
  | task writer taskId record => exact .inl ⟨(writer, .task taskId record), rfl⟩
  | request writer requestId old new => exact .inl ⟨(writer, .request requestId (some new)), rfl⟩
  | remember writer key requestId =>
    exact .inl ⟨(writer, .idempotency key (some requestId)), rfl⟩
  | metadata writer key object => exact .inl ⟨(writer, .metadata key object), rfl⟩
  | neutral writer write => exact .inl ⟨(writer, write), rfl⟩

/-- Updates that stop before one of their puts leave tasks owned and requests remembered. -/
theorem Updates.cut {writers : List Writer} (others : .createRequest ∉ writers)
    (updates : Updates env settings permits state next) (adds : Adds writers state next)
    (owned : Owned env state.store) :
    ∃ writes, next = state.performAll writes ∧ ∀ count,
      (∃ entry, writes[count]? = some entry ∧ entry.2.isPut = true) →
        Owned env (state.performAll (writes.take count)).store := by
  induction updates with
  | refl =>
    refine ⟨[], rfl, ?_⟩
    rintro count ⟨entry, found, _⟩
    simp at found
  | @tail middle last earlier update ih =>
    obtain ⟨early, grown⟩ := Updates.grows earlier
    obtain ⟨late, regrown⟩ := update.grows
    obtain ⟨before, own⟩ := adds.split grown regrown
    obtain ⟨writes, reached, cuts⟩ := ih before
    have middleOwned := Updates.owned earlier owned
    have within : ∀ (more : List (Writer × Write)) (count : Nat), count < writes.length →
        (∃ entry, (writes ++ more)[count]? = some entry ∧ entry.2.isPut = true) →
          Owned env (state.performAll ((writes ++ more).take count)).store := by
      intro more count short put
      rw [List.getElem?_append_left short] at put
      rw [List.take_append_of_le_length short.le]
      exact cuts count put
    have whole : ∀ more, Owned env
        (state.performAll ((writes ++ more).take writes.length)).store := by
      intro more
      rw [List.take_left, ← reached]
      exact middleOwned
    rcases update.single own others with ⟨entry, shape⟩ | ⟨first, second, shape, deletes⟩
    · refine ⟨writes ++ [entry], ?_, ?_⟩
      · rw [QueueState.performAll_append, ← reached, shape]
      · intro count put
        rcases lt_trichotomy count writes.length with short | same | long
        · exact within _ count short put
        · exact same ▸ whole _
        · obtain ⟨found, present, _⟩ := put
          rw [List.getElem?_eq_none (by simp; omega)] at present
          cases present
    · refine ⟨writes ++ [first, second], ?_, ?_⟩
      · rw [QueueState.performAll_append, ← reached, shape]
      · intro count put
        rcases lt_trichotomy count writes.length with short | same | long
        · exact within _ count short put
        · exact same ▸ whole _
        · obtain ⟨found, present, isPut⟩ := put
          -- Only the second deletion is left, and a deletion is not a put.
          rw [List.getElem?_append_right long.le] at present
          obtain ⟨rest, position⟩ : ∃ rest, count - writes.length = rest + 1 :=
            ⟨count - writes.length - 1, by omega⟩
          rw [position, List.getElem?_cons_succ] at present
          cases rest with
          | zero =>
            cases present
            rw [deletes] at isPut
            cases isPut
          | succ more => simp at present

/-- In runs in which `create_request` writes nothing or everything, tasks are owned and
requests remembered, wherever the other calls fail. -/
theorem FailingRun.owned (reached : FailingRun env settings Call.CreatesWhole state) :
    Owned env state.store := by
  induction reached with
  | start => exact owned_empty
  | @step current call earlier possible met ih =>
    cases call with
    | completed operation =>
      exact (@execute_moves env settings {} current operation operation.permitted_all).owned ih
    | failed operation count =>
      by_cases creates : .createRequest ∈ operation.writers
      · cases operation with
        | createRequest request =>
          have nothing : count = 0 := met
          subst nothing
          exact ih
        | _ => simp at creates
      · have moves := @execute_moves env settings {} current operation operation.permitted_all
        obtain ⟨writes, shape, cuts⟩ :=
          Updates.cut creates (moves.leads ih) moves.within.adds ih
        simp only [Call.next, Call.Possible, interrupted, shape,
          addedWrites_performAll] at possible ⊢
        exact cuts count possible

/-- A `create_request` call, wherever it stops, replaces no task of an owned store. -/
theorem Owned.creation_keeps (owned : Owned env state.store) (call : CreateCall) (count : Nat)
    {taskId : String} {task : TaskRecord} (stored : state.store.tasks[taskId]? = some task) :
    (interrupted env settings state (.createRequest call) count).store.tasks[taskId]? =
      some task := by
  simp only [interrupted, execute]
  rcases createRequest_cases env settings call state with same | ⟨absent, shape⟩
  · have nothing : addedWrites state state = [] := addedWrites_performAll state []
    rw [same, nothing, List.take_nil]
    exact stored
  · rw [shape, writeRequest_eq_performAll, addedWrites_performAll, performAll_kept _ _ ?_]
    · exact stored
    · intro entry inside record same
      have member := List.mem_of_mem_take inside
      simp only [creationWrites, List.cons_append, List.mem_cons, List.mem_append, List.mem_map,
        List.not_mem_nil, or_false] at member
      rcases member with rfl | ⟨work, _, rfl⟩ | rfl | rfl
      · cases same
      · have unused := owned.unused call absent work
        obtain ⟨rfl, _⟩ := Write.task.inj same
        exact absurd (stored.symm.trans unused) (by simp)
      · cases same
      · cases same

end Cuts

/-- In every run of calls that complete or fail at any write, as long as no
`create_request` call fails between its first write and its last, a `create_request` call
replaces no task, wherever it stops itself. If the request has tasks, the call changes
nothing and returns the stored request. -/
theorem repeated_create_keeps_tasks {env : Environment} {settings : Settings} {state : QueueState}
    (reached : FailingRun env settings Call.CreatesWhole state) (call : CreateCall)
    {taskId : String} {task : TaskRecord} (stored : state.store.tasks[taskId]? = some task) :
    (∀ count, (interrupted env settings state (.createRequest call) count).store.tasks[taskId]? =
        some task) ∧
      (task.requestId = env.hash call.identity →
        ¬(1 < call.tenants.length ∨
          (call.tenants ≠ [] ∧ ∃ work ∈ call.tasks, work.tenantId = "")) →
        ∃ request, state.store.requests[env.hash call.identity]? = some request ∧
          createRequest env settings call state = (.ok request, state)) := by
  have owned := reached.owned
  refine ⟨fun count => owned.creation_keeps call count stored, ?_⟩
  intro own oneTenant
  obtain ⟨request, requested, _⟩ := owned.taskListed taskId task stored
  have known := owned.remembered _ _ requested
  rw [own] at requested known
  refine ⟨request, requested, ?_⟩
  simp only [createRequest, if_neg oneTenant, known, requested]

/-- A request is created and its task claimed. -/
def claimedRequest : QueueState :=
  let call := smallRequest 1 "g" 1
  Call.next .transparent (Settings.clamped 60 3 1 60)
    (Call.next .transparent (Settings.clamped 60 3 1 60) {} (.completed (.createRequest call)))
    (.completed (.claimTask (firstClaim .transparent call (smallTask 1) "token")))

theorem repeated_create_returns_claimed :
    ∃ request, claimedRequest.store.requests[Environment.transparent.hash
        (smallRequest 1 "g" 1).identity]? = some request ∧
      createRequest .transparent (Settings.clamped 60 3 1 60) (smallRequest 1 "g" 1)
        claimedRequest = (.ok request, claimedRequest) := by
  have reached : FailingRun .transparent (Settings.clamped 60 3 1 60) Call.CreatesWhole
      claimedRequest :=
    .step (.completed (.claimTask _)) (.step (.completed (.createRequest _)) .start trivial trivial)
      trivial trivial
  have claimed : (claimedRequest.store.tasks[(firstClaim .transparent (smallRequest 1 "g" 1)
      (smallTask 1) "token").taskId]?.any fun task => decide (task.requestId =
        Environment.transparent.hash (smallRequest 1 "g" 1).identity)) = true := by
    decide +kernel
  obtain ⟨task, stored, own⟩ := (Option.any_eq_true _ _).mp claimed
  exact (repeated_create_keeps_tasks reached (smallRequest 1 "g" 1) stored).2
    (of_decide_eq_true own) (by decide)

/-- The last write of a `create_request` call fails, its task is claimed, and the call is
repeated. -/
def halfCreated : QueueState :=
  let call := smallRequest 1 "g" 1
  Call.next .transparent (Settings.clamped 60 3 1 60)
    (Call.next .transparent (Settings.clamped 60 3 1 60) {} (.failed (.createRequest call) 3))
    (.completed (.claimTask (firstClaim .transparent call (smallTask 1) "token")))

/-- The repeated call puts the claimed task back to its first record. -/
theorem repeated_create_discards_claim :
    FailingRun .transparent (Settings.clamped 60 3 1 60) (fun _ => True) halfCreated ∧
      let taskId := (firstClaim .transparent (smallRequest 1 "g" 1) (smallTask 1) "token").taskId
      let next := (createRequest .transparent (Settings.clamped 60 3 1 60) (smallRequest 1 "g" 1)
        halfCreated).2
      halfCreated.store.tasks[taskId]?.map TaskRecord.state = some .claimed ∧
        next.store.tasks[taskId]?.map TaskRecord.state = some .queued ∧
        next.store.tasks[taskId]?.map TaskRecord.attempt = some 0 := by
  have facts : ((addedWrites {} (execute .transparent (Settings.clamped 60 3 1 60) {}
        (.createRequest (smallRequest 1 "g" 1))))[3]?.any fun entry => entry.2.isPut) = true ∧
      let taskId := (firstClaim .transparent (smallRequest 1 "g" 1) (smallTask 1) "token").taskId
      let next := (createRequest .transparent (Settings.clamped 60 3 1 60) (smallRequest 1 "g" 1)
        halfCreated).2
      halfCreated.store.tasks[taskId]?.map TaskRecord.state = some .claimed ∧
        next.store.tasks[taskId]?.map TaskRecord.state = some .queued ∧
        next.store.tasks[taskId]?.map TaskRecord.attempt = some 0 := by
    decide +kernel
  obtain ⟨fails, rest⟩ := facts
  refine ⟨?_, rest⟩
  exact .step (.completed (.claimTask _)) (.step (.failed (.createRequest _) 3) .start
    ((Option.any_eq_true _ _).mp fails) trivial) trivial trivial

end ShortcutProxy.WorkQueue
