import ShortcutProxy.TaskTransitions

/-!
# Which results are accepted

A claim is in force when the last write of its task by `claim_task` has been
followed, for that task, by renewals only. Every claim found in a stored record
is in force and carries what its call wrote: expiring, releasing, reassigning,
fencing, cancelling and settling a task all remove the entry.

`accept_result` first expires claims and then compares. A record that is still
claimed after the expiry was not touched by it, so the comparisons are made with
the record stored before the call. The result is an exact description of what
an arbitrary report, at an arbitrary point of an arbitrary run, can do to task
records. Uniqueness of claim tokens is not used: a report must repeat the token
of the claim in force, whoever else may have held an equal one.
-/
namespace ShortcutProxy.WorkQueue

open Contract Generation Records List QueueState

/-! ## Claims in force -/

/-- The last claim of a task, with only renewals of that task since. -/
def InForce (taskId : String) (journal : List (Journal.Entry String Writer TaskRecord))
    (call : ClaimCall) (record : TaskRecord) : Prop :=
  ∃ newer older, journal = newer ++ ⟨taskId, .claimTask call, some record⟩ :: older ∧
    ∀ entry ∈ newer, entry.key = taskId → entry.writer = .renewAgentClaims

theorem InForce.cons {taskId : String} {journal : List (Journal.Entry String Writer TaskRecord)}
    {call : ClaimCall} {record : TaskRecord} (inForce : InForce taskId journal call record)
    (entry : Journal.Entry String Writer TaskRecord)
    (harmless : entry.key = taskId → entry.writer = .renewAgentClaims) :
    InForce taskId (entry :: journal) call record := by
  obtain ⟨newer, older, shape, renewals⟩ := inForce
  refine ⟨entry :: newer, older, by rw [shape, cons_append], ?_⟩
  intro other inside
  rcases mem_cons.mp inside with rfl | inNewer
  · exact harmless
  · exact renewals other inNewer

variable (env : Environment) (settings : Settings)

/-- What a stored claim shares with the call that made it. -/
structure WrittenBy (claim : Claim) (attempt : Int) (call : ClaimCall)
    (record : TaskRecord) : Prop where
  token : claim.claimToken = call.claimToken
  agent : claim.agentId = call.agentId
  lease : claim.agentLeaseHash = env.hash call.agentLeaseId
  version : claim.membershipVersion = call.membershipVersion
  fence : claim.workerFence = call.workerFence
  attempt : attempt = record.attempt

/-- Every stored claim is in force and was written by its call. -/
def ClaimsInForce (state : QueueState) : Prop :=
  ∀ (taskId : String) (task : TaskRecord) (claim : Claim),
    state.store.tasks[taskId]? = some task → task.claim = some claim →
      ∃ call record, InForce taskId (taskJournal state.journal) call record ∧
        record.state = .claimed ∧ WrittenBy env claim task.attempt call record

/-- A move that leaves a claim either takes it or renews it. -/
theorem claim_of_move {env : Environment} {writer : Writer} {old : Option TaskRecord}
    {task : TaskRecord} {claim : Claim} (move : TaskMove env writer old (some task))
    (agrees : ∀ prior, old = some prior → ClaimAgrees prior) (held : task.claim = some claim) :
    (∃ call duration prior, writer = .claimTask call ∧ task = claimed env call duration prior) ∨
      ∃ now prior, writer = .renewAgentClaims ∧ old = some prior ∧ task = renewed now prior := by
  have unclaimed : ∀ prior, old = some prior → prior.state ≠ .claimed →
      prior.claim ≠ some claim := by
    intro prior stored free
    rw [(agrees prior stored).unclaimed free]
    exact nofun
  cases move with
  | created _ record empty queued fresh =>
    rw [empty] at held
    cases held
  | deadlineExpired now prior due =>
    have waiting : prior.state ≠ .claimed := by
      simp only [TaskRecord.waitingPastDeadline, TaskState.runnable, decide_eq_true_eq] at due
      rcases due.1 with same | same <;> simp [same]
    exact absurd held (unclaimed prior rfl waiting)
  | expirySettled target prior expired reopened | recovered clock prior expired =>
    exact absurd held (unclaimed prior rfl (by simp [expired]))
  | requeued call prior waiting =>
    exact absurd held (unclaimed prior rfl (by simp [waiting]))
  | dispatched now reason prior runnable =>
    have waiting : prior.state ≠ .claimed := by
      intro same
      rw [same] at runnable
      cases runnable
    exact absurd held (unclaimed prior rfl waiting)
  | claimed call duration prior queued => exact .inl ⟨call, duration, prior, rfl, rfl⟩
  | renewed agentId agentLeaseId now prior live => exact .inr ⟨now, prior, rfl, rfl, rfl⟩
  | _ => cases held

theorem ClaimsInForce.step {env : Environment} {state next : QueueState}
    (claims : ClaimsInForce env state) (tasks : LawfulTasks state)
    (step : TaskStep env state next) : ClaimsInForce env next := by
  cases step with
  | other writer write apart =>
    intro taskId task claim stored held
    rw [perform_journal, taskJournal_cons_of_ne _ _ _ apart]
    refine claims taskId task claim ?_ held
    cases write with
    | task other record => exact absurd rfl (apart other record)
    | _ => exact stored
  | task writer written record move =>
    intro taskId task claim stored held
    simp only [perform_store, Store.apply, getElem?_assign] at stored
    rw [perform_journal, taskJournal_cons_task]
    split at stored
    · next same =>
      subst same stored
      rcases claim_of_move move (fun prior found => tasks.agrees found) held with
        ⟨call, duration, prior, rfl, rfl⟩ | ⟨now, prior, rfl, found, rfl⟩
      · cases held
        exact ⟨call, _, ⟨[], _, rfl, by simp⟩, rfl, ⟨rfl, rfl, rfl, rfl, rfl, rfl⟩⟩
      · obtain ⟨entry, stored, renewal⟩ := Option.map_eq_some_iff.mp held
        obtain ⟨call, record, inForce, claimedThen, byCall⟩ := claims written prior entry found stored
        subst renewal
        exact ⟨call, record, inForce.cons _ (fun _ => rfl), claimedThen,
          ⟨byCall.token, byCall.agent, byCall.lease, byCall.version, byCall.fence,
            byCall.attempt⟩⟩
    · next different =>
      obtain ⟨call, record, inForce, claimedThen, byCall⟩ := claims taskId task claim stored held
      exact ⟨call, record, inForce.cons _ (fun same => absurd same different), claimedThen, byCall⟩

/-- In every reachable state the claims are in force. -/
theorem run_claimsInForce
    (operations : List Operation) : ClaimsInForce env (run env settings operations) := by
  have steps : TaskSteps env {} (run env settings operations) := run_taskSteps operations
  have both : ∀ {first second : QueueState}, TaskSteps env first second →
      LawfulTasks first → ClaimsInForce env first →
        LawfulTasks second ∧ ClaimsInForce env second := by
    intro first second steps tasks claims
    induction steps with
    | refl => exact ⟨tasks, claims⟩
    | tail _ step ih =>
      exact ⟨ih.1.step step,
        ih.2.step ih.1 step⟩
  refine (both steps ⟨fun taskId => by simp, trivial⟩ ?_).2
  intro taskId task claim stored
  simp at stored

/-! ## What expiry leaves claimed -/

/-- A task that is claimed afterwards was claimed before, with the same record. -/
def OnlyUnclaims (first second : QueueState) : Prop :=
  ∀ (taskId : String) (task : TaskRecord), second.store.tasks[taskId]? = some task →
    task.state = .claimed → first.store.tasks[taskId]? = some task

theorem OnlyUnclaims.refl (state : QueueState) : OnlyUnclaims state state :=
  fun _ _ stored _ => stored

theorem OnlyUnclaims.trans {first second third : QueueState} (left : OnlyUnclaims first second)
    (right : OnlyUnclaims second third) : OnlyUnclaims first third :=
  fun taskId task stored held => left taskId task (right taskId task stored held) held

theorem OnlyUnclaims.foldl {α : Type} (body : QueueState → α → QueueState)
    (each : ∀ state item, OnlyUnclaims state (body state item)) (items : List α)
    (state : QueueState) : OnlyUnclaims state (items.foldl body state) :=
  List.foldlRecOn items body (.refl state) fun current earlier item _ =>
    earlier.trans (each current item)

theorem OnlyUnclaims.task (state : QueueState) (writer : Writer) (taskId : String)
    (record : TaskRecord) (free : record.state ≠ .claimed) :
    OnlyUnclaims state (state.perform writer (.task taskId (some record))) := by
  intro other task stored held
  simp only [perform_store, Store.apply, getElem?_assign] at stored
  split at stored
  · cases stored
    exact absurd held free
  · exact stored

theorem expirySettled_free (now : Int) (task : TaskRecord) (record : TaskRecord) :
    (expirySettled (expiryTarget now task) record).state ≠ .claimed := by
  rcases expiryTarget_cases now task with same | same <;> simp [expirySettled, same]

theorem expireTask_onlyUnclaims (now : Int) (task : TaskRecord) (state : QueueState) :
    OnlyUnclaims state (expireTask now task state) := by
  unfold expireTask
  split
  · exact .task _ _ _ _ (by simp [deadlineExpired])
  · split
    · exact (OnlyUnclaims.task _ _ _ _ (by simp [claimExpired])).trans
        (.task _ _ _ _ (expirySettled_free now task _))
    · exact .refl state

theorem refreshRequests_onlyUnclaims (now : Int) (state : QueueState) :
    OnlyUnclaims state (refreshRequests now state) := by
  refine .foldl _ ?_ _ state
  intro current requestId
  rcases refreshRequest_cases now requestId current with
    same | ⟨request, _, _, _, _, ⟨rfl, _⟩ | ⟨rfl, _⟩, _, shape⟩
  · rw [same]
    exact .refl current
  · rw [shape]
    exact fun taskId task stored held => stored
  · have cancelling : OnlyUnclaims current
        (cancelSiblings now (current.store.tasksOf request) current) :=
      .foldl _ (fun inner task => .task inner _ _ _
        (by simp [siblingCancelled])) _ current
    rw [shape]
    exact fun taskId task stored held => cancelling taskId task stored held

/-- Visiting a task whose claim has lapsed leaves it unclaimed. -/
theorem expireTask_lapsed (now : Int) (task : TaskRecord) (state : QueueState)
    (lapsed : task.claimLapsed now = true) (record : TaskRecord)
    (stored : (expireTask now task state).store.tasks[task.taskId]? = some record) :
    record.state ≠ .claimed := by
  unfold expireTask at stored
  split at stored
  · simp only [perform_store, Store.apply, getElem?_assign_self] at stored
    cases stored
    simp [deadlineExpired]
  · simp only [perform_store, Store.apply, getElem?_assign_self] at stored
    cases stored
    exact expirySettled_free now task _

/-- After an expiry, a claimed task is as it was before and has not lapsed. -/
theorem claimed_after_expiry {env : Environment} (now : Int) (state : QueueState)
    (owned : Owned env state.store) (taskId : String) (task : TaskRecord)
    (stored : (expireClaims now state).2.store.tasks[taskId]? = some task)
    (held : task.state = .claimed) :
    state.store.tasks[taskId]? = some task ∧ task.claimLapsed now = false := by
  have visited := refreshRequests_onlyUnclaims now _ taskId task stored held
  have before : state.store.tasks[taskId]? = some task :=
    OnlyUnclaims.foldl _ (fun current listed => expireTask_onlyUnclaims now listed current) _ state
      taskId task visited held
  refine ⟨before, ?_⟩
  have listed : task ∈ state.store.listTasks := (mem_listing _ _).mpr ⟨taskId, before⟩
  obtain ⟨earlier, later, shape⟩ := append_of_mem listed
  rw [shape, foldl_append, foldl_cons] at visited
  have own := OnlyUnclaims.foldl _
    (fun current other => expireTask_onlyUnclaims now other current) later _ taskId task visited held
  cases lapsed : task.claimLapsed now with
  | false => rfl
  | true =>
    rw [← owned.taskKey taskId task before] at own
    exact absurd held (expireTask_lapsed now task _ lapsed task own)

/-! ## Who writes during an operation -/

/-- The second journal extends the first, and `accept_result` itself wrote
nothing of what was added. -/
def WithoutAcceptance (first second : QueueState) : Prop :=
  ∃ fresh, second.journal = fresh ++ first.journal ∧ ∀ entry ∈ fresh, entry.1 ≠ .acceptResult

theorem WithoutAcceptance.refl (state : QueueState) : WithoutAcceptance state state :=
  ⟨[], rfl, by simp⟩

theorem Within.withoutAcceptance {writers : List Writer} {first second : QueueState}
    (within : Within writers first second) (foreign : .acceptResult ∉ writers) :
    WithoutAcceptance first second := by
  obtain ⟨fresh, grown, allowed⟩ := within.adds
  exact ⟨fresh, grown, fun entry inside own => foreign (own ▸ (allowed entry inside).1)⟩

theorem expireClaims_withoutAcceptance (env : Environment) (settings : Settings) (now : Int)
    (state : QueueState) : WithoutAcceptance state (expireClaims now state).2 :=
  (@expireClaims_moves env settings {} [.expireClaims, .refreshRequests] _ _ (by simp)
    (by simp)).within.withoutAcceptance (by simp)

/-! ## The effect of a report -/

/-- A report belongs to the claim in force of its task, and the claim is live:
it repeats what the last `claim_task` wrote, comes from the agent and lease of
that call, and neither the claim nor the deadline of the task has run out. -/
structure Entitled (env : Environment) (state : QueueState) (result : TaskResult)
    (agentLeaseId : String) (now : Int) (task : TaskRecord) (call : ClaimCall) : Prop where
  stored : state.store.tasks[result.taskId]? = some task
  held : task.state = .claimed
  inForce : ∃ record, InForce result.taskId (taskJournal state.journal) call record ∧
    record.state = .claimed ∧ result.attempt = record.attempt
  token : result.claimToken = call.claimToken
  agent : result.agentId = call.agentId
  lease : agentLeaseId = call.agentLeaseId
  version : result.membershipVersion = call.membershipVersion
  fence : result.workerFence = call.workerFence
  live : now < task.claimExpiry
  beforeDeadline : task.deadlinePassed now = false

/-- The generation of the task, which the report names, is the coordinator's
whenever there is one. -/
def GenerationCurrent (store : Store) (task : TaskRecord) : Prop :=
  ∃ generation, currentGeneration env store = .ok generation ∧
    ∀ context, generation = some context →
      task.task.generationId = context.generationId ∧
        task.task.generationFence = context.fence ∧ task.task.planSha256 = context.planSha256

/-- The coordinator runs another generation than the task. -/
def GenerationSuperseded (store : Store) (task : TaskRecord) : Prop :=
  ∃ context, currentGeneration env store = .ok (some context) ∧
    ¬(task.task.generationId = context.generationId ∧
      task.task.generationFence = context.fence ∧ task.task.planSha256 = context.planSha256)

/-- What one call of `accept_result` does to task records. Its own task writes
settle the reported task of an entitled report under the current generation.
Without such a write the task records are untouched, or as `expire_claims`
leaves them, or as cancelling the request of an entitled report leaves them when
its generation was superseded. -/
structure AcceptanceEffect (env : Environment) (settings : Settings) (state : QueueState)
    (result : TaskResult) (agentLeaseId : String) (now cancelNow : Int) (after : QueueState) :
    Prop where
  settles : ∃ fresh, after.journal = fresh ++ state.journal ∧
    ∀ taskId record, (.acceptResult, .task taskId record) ∈ fresh →
      taskId = result.taskId ∧
      (∃ value, record = some value ∧
        (value.state = .succeeded ∨ value.state = .retryWait ∨ value.state = .failed)) ∧
      ∃ task call, Entitled env state result agentLeaseId now task call ∧
        GenerationCurrent env state.store task
  otherwise : WithoutAcceptance state after →
    after.store.tasks = state.store.tasks ∨
    after.store.tasks = (expireClaims now state).2.store.tasks ∨
    ∃ task call, Entitled env state result agentLeaseId now task call ∧
      GenerationSuperseded env state.store task ∧
      after.store.tasks = (cancelRequest env task.requestId "generation_fenced" cancelNow
        (expireClaims now state).2).2.store.tasks

section Effect

variable {env : Environment} {settings : Settings} {state after : QueueState}
  {result : TaskResult} {agentLeaseId : String} {now cancelNow : Int}

/-- A call that wrote nothing itself is described by its task records alone. -/
theorem AcceptanceEffect.of_foreign (foreign : WithoutAcceptance state after)
    (tasks : after.store.tasks = state.store.tasks ∨
      after.store.tasks = (expireClaims now state).2.store.tasks ∨
      ∃ task call, Entitled env state result agentLeaseId now task call ∧
        GenerationSuperseded env state.store task ∧
        after.store.tasks = (cancelRequest env task.requestId "generation_fenced" cancelNow
          (expireClaims now state).2).2.store.tasks) :
    AcceptanceEffect env settings state result agentLeaseId now cancelNow after := by
  refine ⟨?_, fun _ => tasks⟩
  obtain ⟨fresh, grown, others⟩ := foreign
  refine ⟨fresh, grown, ?_⟩
  intro taskId record inside
  exact absurd rfl (others _ inside)

theorem AcceptanceEffect.of_expiry :
    AcceptanceEffect env settings state result agentLeaseId now cancelNow
      (expireClaims now state).2 :=
  .of_foreign (expireClaims_withoutAcceptance env settings now state) (.inr (.inl rfl))

/-- The comparisons of `accept_result` after the expiry establish entitlement in
the state before it. -/
theorem entitled_of_checkClaim (owned : Owned env state.store) (claims : ClaimsInForce env state)
    {task : TaskRecord} {claim : Claim}
    (stored : (expireClaims now state).2.store.tasks[result.taskId]? = some task)
    (passed : checkClaim env task result agentLeaseId = .ok claim) :
    ∃ call, Entitled env state result agentLeaseId now task call := by
  obtain ⟨entry, held, token, agent, attempt, lease, version, fence⟩ := checkClaim_ok passed
  obtain ⟨before, notLapsed⟩ := claimed_after_expiry now state owned _ task stored held
  obtain ⟨call, record, inForce, claimedThen, byCall⟩ := claims _ task claim before entry
  have alive : ¬(task.claimExpiry ≤ now ∨ task.deadlinePassed now = true) := by
    simpa [TaskRecord.claimLapsed, held] using notLapsed
  rw [not_or] at alive
  exact ⟨call,
    { stored := before
      held := held
      inForce := ⟨record, inForce, claimedThen, attempt.trans byCall.attempt⟩
      token := token.symm.trans byCall.token
      agent := agent.symm.trans byCall.agent
      lease := (Digest.hash_inj env.digest _ _).mp (lease.symm.trans byCall.lease)
      version := version.symm.trans byCall.version
      fence := fence.symm.trans byCall.fence
      live := not_le.mp alive.1
      beforeDeadline := by simpa using alive.2 }⟩

/-- A settled record is in one of the three settled states. -/
theorem settleResult_state {store : Store} {claim : Claim} {task settled : TaskRecord}
    {saved : SavedResult}
    (passed : settleResult env settings store now result claim task = .ok (settled, saved)) :
    settled.state = .succeeded ∨ settled.state = .retryWait ∨ settled.state = .failed := by
  unfold settleResult at passed
  split at passed
  · split at passed
    · cases passed
    · split at passed
      · cases passed
      · cases passed
        exact .inl rfl
  · cases passed
    cases again : retriesLeft result task
    · exact .inr (.inr (by simp [reportedFailure, again]))
    · exact .inr (.inl (by simp [reportedFailure, again]))

/-- Accepting a report of an entitled agent under the current generation. -/
theorem AcceptanceEffect.of_acceptance {task settled : TaskRecord} {claim : Claim}
    {saved : SavedResult} {call : ClaimCall}
    (entitled : Entitled env state result agentLeaseId now task call)
    (current : GenerationCurrent env state.store task)
    (outcome : settled.state = .succeeded ∨ settled.state = .retryWait ∨ settled.state = .failed) :
    AcceptanceEffect env settings state result agentLeaseId now cancelNow
      (writeAcceptance now result.taskId claim settled saved (expireClaims now state).2) := by
  obtain ⟨expiry, expired, expiryForeign⟩ := expireClaims_withoutAcceptance env settings now state
  -- One task write, one result write, and the refresh of the requests.
  have refreshed : WithoutAcceptance _
      (writeAcceptance now result.taskId claim settled saved (expireClaims now state).2) :=
    (@refreshRequests_moves env settings {} [.refreshRequests] _ _ (by simp)).within.withoutAcceptance
      (by simp)
  obtain ⟨refresh, written, refreshForeign⟩ := refreshed
  simp only [perform_journal] at written
  rw [expired, ← cons_append, ← cons_append, ← append_assoc] at written
  refine ⟨⟨_, written, ?_⟩, ?_⟩
  · intro taskId record inside
    rcases mem_append.mp inside with late | soon
    · exact absurd rfl (refreshForeign _ late)
    · simp only [mem_cons, Prod.mk.injEq, reduceCtorEq, and_false, false_or, Write.task.injEq,
        true_and] at soon
      rcases soon with ⟨rfl, rfl⟩ | early
      · exact ⟨rfl, ⟨settled, rfl, outcome⟩, task, call, entitled, current⟩
      · exact absurd rfl (expiryForeign _ early)
  · rintro ⟨fresh, grown, foreign⟩
    have same : fresh = _ := append_cancel_right (grown.symm.trans written)
    have inside : (.acceptResult, .task result.taskId (some settled)) ∈ fresh := by
      rw [same]
      simp
    exact absurd rfl (foreign _ inside)

/-- The report's own comparison with the coordinator, read as one of the task. -/
theorem supersedes_eq_false {task : TaskRecord} {context : GenerationContext}
    (named : namesGeneration task result = true) :
    supersedes context result = false ↔
      task.task.generationId = context.generationId ∧
        task.task.generationFence = context.fence ∧ task.task.planSha256 = context.planSha256 := by
  simp only [namesGeneration, decide_eq_true_eq] at named
  obtain ⟨sameId, sameFence, samePlan⟩ := named
  rw [supersedes, decide_eq_false_iff_not, not_or, not_or, sameId, sameFence, samePlan]
  simp only [ne_eq, not_not]

/-- The effect of the checks that follow the claim checks. -/
theorem acceptClaimed_effect {task : TaskRecord} {claim : Claim} {call : ClaimCall}
    (entitled : Entitled env state result agentLeaseId now task call) :
    AcceptanceEffect env settings state result agentLeaseId now cancelNow
      (acceptClaimed env settings result agentLeaseId now cancelNow task claim
        (expireClaims now state).2).2 := by
  unfold acceptClaimed
  split
  · exact .of_expiry
  · split
    · exact .of_expiry
    · next names =>
      have named : namesGeneration task result = true := by simpa using names
      have same : (expireClaims now state).2.store.coordinator = state.store.coordinator :=
        expireClaims_view Store.coordinator (fun _ _ _ => rfl) (fun _ _ _ => rfl) now state
      rw [currentGeneration, same, ← currentGeneration]
      split
      · exact .of_expiry
      · next generation read =>
        split
        · next superseding =>
          cases generation with
          | none => cases superseding
          | some context =>
          have written : Moves env settings {}
              [.expireClaims, .refreshRequests, .cancelRequest] state
              (cancelRequest env task.requestId "generation_fenced" cancelNow
                (expireClaims now state).2).2 :=
            (expireClaims_moves (by simp) (by simp)).trans
              (cancelRequest_moves (by simp))
          refine .of_foreign (written.within.withoutAcceptance (by simp)) (.inr (.inr ?_))
          refine ⟨task, call, entitled, ⟨context, read, ?_⟩, rfl⟩
          rw [← supersedes_eq_false named]
          simpa using superseding
        · next current =>
          have upToDate : GenerationCurrent env state.store task := by
            refine ⟨generation, read, ?_⟩
            rintro context rfl
            rw [← supersedes_eq_false named]
            simpa using current
          unfold settleClaimed
          split
          · exact .of_expiry
          · next settled saved passed =>
            exact .of_acceptance entitled upToDate (settleResult_state passed)

end Effect

/-- A report delivered at any point of any run settles its task only if it
belongs to the claim in force of that task, which is live, and the task is of the
current generation. Every other report changes task records at most as
`expire_claims` would, except that an entitled report of a superseded generation
cancels its own request. -/
theorem acceptResult_effect (env : Environment) (settings : Settings) (operations : List Operation)
    (result : TaskResult) (agentLeaseId : String) (now cancelNow : Int) :
    AcceptanceEffect env settings (run env settings operations) result agentLeaseId now cancelNow
      (acceptResult env settings result agentLeaseId now cancelNow
        (run env settings operations)).2 := by
  have owned : Owned env (run env settings operations).store := run_owned operations
  have claims := run_claimsInForce env settings operations
  generalize run env settings operations = state at owned claims ⊢
  unfold acceptResult
  split
  · exact .of_foreign (.refl state) (.inl rfl)
  · dsimp only
    split
    · exact .of_expiry
    · next task stored =>
      split
      · exact .of_expiry
      · split
        · exact .of_expiry
        · next claim passed =>
          obtain ⟨call, entitled⟩ := entitled_of_checkClaim owned claims stored passed
          exact acceptClaimed_effect entitled

end ShortcutProxy.WorkQueue
