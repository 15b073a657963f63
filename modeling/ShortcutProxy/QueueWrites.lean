import ShortcutProxy.QueueMoves

/-!
# The writes of an operation

An operation changes the store by a list of single writes, made in order. Which
function of the source makes them, and which kinds of records that function
writes or deletes, is fixed for each operation. The list is what a crash or a
failing store cuts short: the writes before the cut are durable and the rest
never happen.
-/
namespace ShortcutProxy.WorkQueue

open Contract Generation Records

/-- The state after a list of writes, oldest first. -/
def QueueState.performAll (state : QueueState) (writes : List (Writer × Write)) : QueueState :=
  writes.foldl (fun current entry => current.perform entry.1 entry.2) state

@[simp] theorem QueueState.performAll_cons (state : QueueState) (entry : Writer × Write)
    (rest : List (Writer × Write)) :
    state.performAll (entry :: rest) = (state.perform entry.1 entry.2).performAll rest := rfl

@[simp] theorem QueueState.performAll_nil (state : QueueState) : state.performAll [] = state := rfl

theorem QueueState.performAll_append (state : QueueState) (first second : List (Writer × Write)) :
    state.performAll (first ++ second) = (state.performAll first).performAll second :=
  List.foldl_append

theorem QueueState.performAll_journal (state : QueueState) (writes : List (Writer × Write)) :
    (state.performAll writes).journal = writes.reverse ++ state.journal := by
  induction writes generalizing state with
  | nil => rfl
  | cons entry rest ih =>
    rw [performAll_cons, ih, perform_journal, List.reverse_cons,
      List.append_assoc, List.singleton_append]

/-- The kinds of records that a function of the source writes or deletes. -/
def Writer.touches : Writer → Write → Bool
  | .createRequest, .request _ (some _) => true
  | .createRequest, .task _ (some _) => true
  | .createRequest, .idempotency _ (some _) => true
  | .claimTask _, .task _ (some _) => true
  | .renewAgentClaims, .task _ (some _) => true
  | .releaseClaim, .task _ (some _) => true
  | .acceptResult, .task _ (some _) => true
  | .acceptResult, .result _ (some _) => true
  | .expireClaims, .task _ (some _) => true
  | .refreshRequests, .task _ (some _) => true
  | .refreshRequests, .request _ (some _) => true
  | .reassignFencedClaims, .task _ (some _) => true
  | .reassignFencedClaims, .membership _ _ => true
  | .fenceClaims, .task _ (some _) => true
  | .cancelRequest, .task _ (some _) => true
  | .cancelRequest, .request _ (some _) => true
  | .retryTask, .result _ none => true
  | .retryTask, .task _ (some _) => true
  | .retryTask, .request _ (some _) => true
  | .recover, .request _ _ => true
  | .recover, .task _ _ => true
  | .recover, .result _ none => true
  | .recover, .idempotency _ _ => true
  | .setDispatchStatus, .task _ (some _) => true
  | .pruneTerminal, .result _ none => true
  | .pruneTerminal, .task _ none => true
  | .pruneTerminal, .request _ none => true
  | .pruneTerminal, .idempotency _ none => true
  | .pruneStaging, .object _ none => true
  | .publishSnapshot, .snapshot _ _ => true
  | .publishSnapshot, .request _ (some _) => true
  | .outside, .object _ _ => true
  | .outside, .metadata _ _ => true
  | .outside, .membership _ _ => true
  | .outside, .coordinator _ => true
  | _, _ => false

/-- The functions of the source that write during an operation. -/
@[simp]
def Operation.writers : Operation → List Writer
  | .createRequest _ => [.createRequest]
  | .claimTask call => [.claimTask call]
  | .renewAgentClaims _ _ _ _ => [.renewAgentClaims]
  | .releaseClaim _ _ _ _ => [.releaseClaim, .refreshRequests]
  | .acceptResult _ _ _ _ => [.expireClaims, .refreshRequests, .cancelRequest, .acceptResult]
  | .expireClaims _ => [.expireClaims, .refreshRequests]
  | .reassignFencedClaims _ _ _ => [.reassignFencedClaims]
  | .fenceClaims _ _ _ => [.fenceClaims, .refreshRequests]
  | .cancelRequest _ _ _ => [.cancelRequest]
  | .retryTask _ _ => [.retryTask]
  | .recoverRecords _ => [.recover]
  | .recover _ => [.recover, .expireClaims, .refreshRequests]
  | .setDispatchStatus _ _ _ => [.setDispatchStatus]
  | .pruneTerminal _ _ => [.pruneStaging, .pruneTerminal]
  | .pruneStaging _ _ _ => [.pruneStaging]
  | .publishSnapshot _ _ _ => [.publishSnapshot]
  | .changeObject _ _ => [.outside]
  | .changeMetadata _ _ => [.outside]
  | .changeMembership _ _ => [.outside]
  | .changeCoordinator _ => [.outside]

/-- The second state follows from the first by writes of the listed functions. -/
def Within (writers : List Writer) (first second : QueueState) : Prop :=
  ∃ writes, second = first.performAll writes ∧
    ∀ entry ∈ writes, entry.1 ∈ writers ∧ entry.1.touches entry.2 = true

section Composition

variable {writers : List Writer} {state first second third : QueueState}

theorem Within.refl : Within writers state state :=
  ⟨[], rfl, by simp⟩

theorem Within.trans (left : Within writers first second) (right : Within writers second third) :
    Within writers first third := by
  obtain ⟨early, rfl, allowedEarly⟩ := left
  obtain ⟨late, rfl, allowedLate⟩ := right
  refine ⟨early ++ late, (first.performAll_append early late).symm, ?_⟩
  intro entry inside
  rcases List.mem_append.mp inside with soon | later
  · exact allowedEarly entry soon
  · exact allowedLate entry later

theorem Within.perform {writer : Writer} {write : Write} (member : writer ∈ writers)
    (touched : writer.touches write = true) :
    Within writers state (state.perform writer write) :=
  ⟨[(writer, write)], rfl, by simpa using ⟨member, touched⟩⟩

theorem Within.foldl {α : Type} {body : QueueState → α → QueueState} {items : List α}
    (each : ∀ {state item}, Within writers state (body state item)) :
    Within writers state (items.foldl body state) :=
  List.foldlRecOn items body .refl fun _ earlier _ _ => earlier.trans each

/-- A view of the store that the listed functions do not write is unchanged. -/
theorem Within.view {β : Type} (view : Store → β)
    (blind : ∀ writer ∈ writers, ∀ write, writer.touches write = true →
      ∀ store, view (store.apply write) = view store)
    (within : Within writers first second) : view second.store = view first.store := by
  obtain ⟨writes, rfl, allowed⟩ := within
  induction writes generalizing first with
  | nil => rfl
  | cons entry rest ih =>
    have own := allowed entry List.mem_cons_self
    rw [QueueState.performAll_cons, ih
      fun later inside => allowed later (List.mem_cons_of_mem _ inside)]
    exact blind entry.1 own.1 entry.2 own.2 first.store

/-- An operation that may take either of two ways keeps to what both may write. -/
theorem Within.ite {condition : Prop} [Decidable condition]
    (left : condition → Within writers first second)
    (right : ¬condition → Within writers first third) :
    Within writers first (if condition then second else third) := by
  split
  · next holds => exact left holds
  · next fails => exact right fails

end Composition

/-! ## Updates made by the listed functions -/

/-- The journal grew by entries of the listed functions. -/
def Adds (writers : List Writer) (first second : QueueState) : Prop :=
  ∃ fresh, second.journal = fresh ++ first.journal ∧
    ∀ entry ∈ fresh, entry.1 ∈ writers ∧ entry.1.touches entry.2 = true

variable {writers : List Writer} {first second : QueueState}

theorem Within.adds (within : Within writers first second) : Adds writers first second := by
  obtain ⟨writes, rfl, allowed⟩ := within
  refine ⟨writes.reverse, first.performAll_journal writes, ?_⟩
  intro entry inside
  exact allowed entry (List.mem_reverse.mp inside)

/-- Whatever the journal grew by is by the listed functions. -/
theorem Adds.allowed (adds : Adds writers first second) {fresh : List (Writer × Write)}
    (grown : second.journal = fresh ++ first.journal) (entry : Writer × Write)
    (inside : entry ∈ fresh) : entry.1 ∈ writers ∧ entry.1.touches entry.2 = true := by
  obtain ⟨added, whole, allowed⟩ := adds
  rw [grown] at whole
  rw [← List.append_cancel_right whole] at allowed
  exact allowed entry inside

theorem Adds.head {state : QueueState} {writer : Writer} {write : Write}
    (adds : Adds writers state (state.perform writer write)) :
    writer ∈ writers ∧ writer.touches write = true :=
  @Adds.allowed writers state _ adds [(writer, write)] rfl (writer, write)
    (List.mem_singleton.mpr rfl)

/-- What two growths add together, each of them adds. -/
theorem Adds.split {third : QueueState}
    (adds : Adds writers first third) {early late : List (Writer × Write)}
    (grown : second.journal = early ++ first.journal)
    (regrown : third.journal = late ++ second.journal) :
    Adds writers first second ∧ Adds writers second third := by
  obtain ⟨fresh, whole, allowed⟩ := adds
  have parts : fresh = late ++ early := by
    rw [grown, ← List.append_assoc] at regrown
    exact List.append_cancel_right (whole.symm.trans regrown)
  subst parts
  exact ⟨⟨early, grown, fun entry inside => allowed entry (List.mem_append_right _ inside)⟩,
    ⟨late, regrown, fun entry inside => allowed entry (List.mem_append_left _ inside)⟩⟩

/-! ## The writes of a creation -/

section Creation

variable {writers : List Writer} {env : Environment} {settings : Settings}

theorem writeRequest_within (member : .createRequest ∈ writers) (call : CreateCall)
    (state : QueueState) : Within writers state (writeRequest env settings call state) := by
  refine ((Within.perform member rfl).trans (.foldl ?_)).trans
    ((Within.perform member rfl).trans (.perform member rfl))
  intro current task
  exact .perform member rfl

/-- The last write of a creation is the idempotency record. -/
theorem writeRequest_journal (call : CreateCall) (state : QueueState) :
    ∃ early, (writeRequest env settings call state).journal =
      (.createRequest, .idempotency (env.hash call.identity)
        (some (env.hash call.identity))) :: early ++ state.journal := by
  have filled : Within [.createRequest] state ((call.tasks.map (createdTask env settings call)).foldl
      (fun current task => current.perform .createRequest (.task task.taskId (some task)))
      (state.perform .createRequest
        (.request (env.hash call.identity) (some (createdRequest env call))))) := by
    refine (Within.perform (List.mem_singleton.mpr rfl) rfl).trans (.foldl ?_)
    intro current task
    exact .perform (List.mem_singleton.mpr rfl) rfl
  obtain ⟨fresh, grown, _⟩ := filled.adds
  exact ⟨_ :: fresh, congrArg (fun older => _ :: _ :: older) grown⟩

end Creation

/-! ## Updates and writes together -/

section Updates

variable {env : Environment} {settings : Settings} {permits : Permits}

/-- An update adds to the journal. -/
theorem Update.grows {state next : QueueState} (update : Update env settings permits state next) :
    ∃ fresh, next.journal = fresh ++ state.journal := by
  cases update with
  | task | request | remember | metadata | neutral => exact ⟨[_], rfl⟩
  | create call permitted absent =>
    obtain ⟨fresh, grown, _⟩ :=
      (writeRequest_within (List.mem_singleton.mpr rfl) call state).adds
    exact ⟨fresh, grown⟩
  | forget writer requestId first second => exact ⟨[_, _], rfl⟩

theorem Updates.grows
    (updates : Updates env settings permits first second) :
    ∃ fresh, second.journal = fresh ++ first.journal := by
  induction updates with
  | refl => exact ⟨[], rfl⟩
  | tail _ update ih =>
    obtain ⟨early, grown⟩ := ih
    obtain ⟨late, regrown⟩ := update.grows
    exact ⟨late ++ early, by rw [regrown, grown, List.append_assoc]⟩

/-- A relation that every update by the listed functions establishes, and that
composes, holds across all their updates. -/
theorem Updates.rule {related : QueueState → QueueState → Prop}
    (reflexive : ∀ {state}, related state state)
    (transitive : ∀ {first second third}, related first second → related second third →
      related first third)
    (step : ∀ state next, Owned env state.store → Update env settings permits state next →
      Adds writers state next → related state next)
    (owned : Owned env first.store)
    (updates : Updates env settings permits first second) (adds : Adds writers first second) :
    related first second := by
  induction updates with
  | refl => exact reflexive
  | tail earlier update ih =>
    obtain ⟨early, grown⟩ := Updates.grows earlier
    obtain ⟨late, regrown⟩ := update.grows
    obtain ⟨before, own⟩ := adds.split grown regrown
    exact transitive (ih before) (step _ _ (Updates.owned earlier owned) update own)

end Updates

/-- Started from an owned store, the second state follows from the first by updates; and it
follows in any case by writes of the listed functions. -/
structure Moves (env : Environment) (settings : Settings) (permits : Permits)
    (writers : List Writer) (first second : QueueState) : Prop where
  within : Within writers first second
  leads : Leads env settings permits first second

section Moving

variable {env : Environment} {settings : Settings} {permits : Permits} {writers : List Writer}
  {state first second third : QueueState} {writer : Writer}

theorem Moves.refl : Moves env settings permits writers state state :=
  ⟨.refl, .refl⟩

theorem Moves.trans (left : Moves env settings permits writers first second)
    (right : Moves env settings permits writers second third) :
    Moves env settings permits writers first third :=
  ⟨left.within.trans right.within, left.leads.trans right.leads⟩

theorem Moves.foldl {α : Type} {body : QueueState → α → QueueState} {items : List α}
    (each : ∀ {state item}, Moves env settings permits writers state (body state item)) :
    Moves env settings permits writers state (items.foldl body state) :=
  List.foldlRecOn items body .refl fun _ earlier _ _ => earlier.trans each

theorem Moves.owned (moves : Moves env settings permits writers first second)
    (owned : Owned env first.store) : Owned env second.store :=
  (moves.leads owned).owned owned

/-- A function that moves tasks or requests is listed with their writes. -/
theorem TaskMove.touches {old : Option TaskRecord} {record : TaskRecord}
    (move : TaskMove env writer old (some record)) (taskId : String) :
    writer.touches (.task taskId (some record)) = true := by
  cases move <;> rfl

theorem RequestMove.touches {old new : RequestRecord} (move : RequestMove writer old new)
    (requestId : String) : writer.touches (.request requestId (some new)) = true := by
  cases move <;> rfl

variable {taskId : String}

theorem Leads.task {record : Option TaskRecord} {task : TaskRecord}
    (stored : state.store.tasks[taskId]? = some task)
    (move : TaskMove env writer (some task) record) (other : writer ≠ .createRequest) :
    Leads env settings permits state (state.perform writer (.task taskId record)) :=
  .of_update (.task writer taskId record (stored ▸ move) other)

theorem Moves.task {record task : TaskRecord} (member : writer ∈ writers)
    (stored : state.store.tasks[taskId]? = some task)
    (move : TaskMove env writer (some task) (some record)) (other : writer ≠ .createRequest) :
    Moves env settings permits writers state (state.perform writer (.task taskId (some record))) :=
  ⟨.perform member (move.touches taskId), .task stored move other⟩

theorem Leads.delete (other : writer ≠ .createRequest) :
    Leads env settings permits state (state.perform writer (.task taskId none)) :=
  .of_update (.task writer taskId none (.deleted writer _) other)

theorem Moves.request {requestId : String} {old new : RequestRecord} (member : writer ∈ writers)
    (stored : state.store.requests[requestId]? = some old) (move : RequestMove writer old new) :
    Moves env settings permits writers state
      (state.perform writer (.request requestId (some new))) :=
  ⟨.perform member (move.touches requestId),
    .of_update (.request writer requestId old new stored move)⟩

theorem Moves.neutral {write : Write} (member : writer ∈ writers)
    (touched : writer.touches write = true) (neutral : write.isNeutral = true) :
    Moves env settings permits writers state (state.perform writer write) :=
  ⟨.perform member touched, .of_update (.neutral writer write neutral)⟩

end Moving

end ShortcutProxy.WorkQueue
