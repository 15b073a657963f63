import ShortcutProxy.IntactQueue

/-!
# How often a task is claimed

Each claim of a task is one attempt, and the record of the task counts them. The
count starts over when the task is created and when an operator retries it. A failed
report and an expired claim compare the count with `max_attempts` before the task may
be claimed again. `release_claim`, `reassign_fenced_claims` and `fence_claims` do not:
they give a claim back that its Agent never completed, so each of them allows one
claim more.

The stored answers of a task belong to attempts that its record has counted. Hence
the answer to the next attempt is never stored already.
-/
namespace ShortcutProxy.WorkQueue

open Contract Generation Records TableMetadata QueueState Store

/-! ## Counting the writes of a task -/

/-- The functions with which a task starts over. -/
def Writer.startsOver : Writer → Bool
  | .createRequest | .retryTask => true
  | _ => false

/-- The write of a claim. -/
def isClaim (writer : Writer) (record : TaskRecord) : Bool :=
  match writer with
  | .claimTask _ => record.state = .claimed
  | _ => false

/-- The write of a claim that is given back, whatever the attempt. -/
def isReturn (writer : Writer) (_ : TaskRecord) : Bool :=
  match writer with
  | .releaseClaim | .reassignFencedClaims | .fenceClaims => true
  | _ => false

/-- The number of marked writes of a task since it started over. -/
def countSince (marks : Writer → TaskRecord → Bool) (taskId : String) :
    List (Writer × Write) → Nat
  | [] => 0
  | (writer, .task other record) :: older =>
    if other = taskId then
      if writer.startsOver then 0
      else countSince marks taskId older + if record.any (marks writer) then 1 else 0
    else countSince marks taskId older
  | _ :: older => countSince marks taskId older

/-- The claims of a task since it was created or last retried. -/
def claimsSince (taskId : String) (journal : List (Writer × Write)) : Nat :=
  countSince isClaim taskId journal

/-- The claims of a task that were given back since it was created or last retried. -/
def returnsSince (taskId : String) (journal : List (Writer × Write)) : Nat :=
  countSince isReturn taskId journal

theorem countSince_other (marks : Writer → TaskRecord → Bool) (taskId : String) (writer : Writer)
    {write : Write} (apart : ∀ record, write ≠ .task taskId record)
    (older : List (Writer × Write)) :
    countSince marks taskId ((writer, write) :: older) = countSince marks taskId older := by
  cases write with
  | task other record =>
    have different : other ≠ taskId := by
      rintro rfl
      exact apart record rfl
    rw [countSince, if_neg different]
  | _ => rfl

variable {writer : Writer} {taskId : String} {old new : TaskRecord}

theorem countSince_goesOn (marks : Writer → TaskRecord → Bool) (taskId : String)
    (goesOn : writer.startsOver = false) (record : Option TaskRecord)
    (older : List (Writer × Write)) :
    countSince marks taskId ((writer, .task taskId record) :: older) =
      countSince marks taskId older + if record.any (marks writer) then 1 else 0 := by
  rw [countSince, if_pos rfl, if_neg (by simp [goesOn])]

/-! ## The attempts of a record count its claims -/

/-- The claims of a task keep within its limit and the claims given back, its record
counts them, and a task that waits for a claim has one left. -/
structure Tallied (settings : Settings) (state : QueueState) (taskId : String) : Prop where
  bounded : (claimsSince taskId state.journal : Int) ≤
    settings.maxAttempts + returnsSince taskId state.journal
  limit : ∀ task, state.store.tasks[taskId]? = some task → task.maxAttempts = settings.maxAttempts
  counted : ∀ task, state.store.tasks[taskId]? = some task →
    task.attempt = claimsSince taskId state.journal
  open_ : ∀ task, state.store.tasks[taskId]? = some task → TaskState.runnable task.state = true →
    task.attempt < settings.maxAttempts + returnsSince taskId state.journal

/-- A write of a task that counts its claim, and lets the task wait again only
within the limit or for a claim given back. -/
structure Counts (writer : Writer) (old new : TaskRecord) : Prop where
  goesOn : writer.startsOver = false
  limit : new.maxAttempts = old.maxAttempts
  attempt : new.attempt = old.attempt + if isClaim writer new then 1 else 0
  waited : isClaim writer new = true → TaskState.runnable old.state = true
  waits : TaskState.runnable new.state = true →
    TaskState.runnable old.state = true ∨ isReturn writer new = true ∨
      new.attempt < new.maxAttempts

section Tallied

variable {env : Environment} {settings : Settings} {permits : Permits} {state next : QueueState}

/-- Writes that leave a task alone leave its tally alone. -/
theorem Tallied.other (tallied : Tallied settings state taskId) (writer : Writer) {write : Write}
    (apart : ∀ record, write ≠ .task taskId record) :
    Tallied settings (state.perform writer write) taskId := by
  have same : (state.store.apply write).tasks[taskId]? = state.store.tasks[taskId]? := by
    cases write with
    | task other record =>
      refine getElem?_assign_of_ne _ _ ?_
      rintro rfl
      exact apart record rfl
    | _ => rfl
  constructor
  · simpa only [perform_journal, claimsSince, returnsSince,
      countSince_other _ _ _ apart] using tallied.bounded
  · rw [perform_store, same]
    exact tallied.limit
  · simpa only [perform_store, same, perform_journal, claimsSince,
      countSince_other _ _ _ apart] using tallied.counted
  · simpa only [perform_store, same, perform_journal, returnsSince,
      countSince_other _ _ _ apart] using tallied.open_

theorem task_of_put {task : TaskRecord} (found : (state.perform writer
    (.task taskId (some new))).store.tasks[taskId]? = some task) : task = new := by
  rw [perform_store, apply, getElem?_assign_self] at found
  exact (Option.some.inj found).symm

/-- A counting write keeps the tally of its task. -/
theorem Tallied.put (tallied : Tallied settings state taskId)
    (stored : state.store.tasks[taskId]? = some old) (counts : Counts writer old new) :
    Tallied settings (state.perform writer (.task taskId (some new))) taskId := by
  have bounded := tallied.bounded
  have limit := tallied.limit old stored
  have counted := tallied.counted old stored
  have claimed := countSince_goesOn isClaim taskId counts.goesOn (some new) state.journal
  have returned := countSince_goesOn isReturn taskId counts.goesOn (some new) state.journal
  have attempt := counts.attempt
  simp only [Option.any_some] at claimed returned
  constructor
  · simp only [perform_journal, claimsSince, returnsSince, claimed, returned] at *
    by_cases claims : isClaim writer new = true
    · have open_ := tallied.open_ old stored (counts.waited claims)
      simp only [returnsSince] at open_
      rw [if_pos claims]
      push_cast
      omega
    · rw [if_neg claims]
      push_cast
      omega
  · intro task found
    rw [task_of_put found, counts.limit, limit]
  · intro task found
    rw [task_of_put found, attempt, counted, claimsSince, perform_journal, claimsSince,
      claimed]
    push_cast
    rfl
  · intro task found waits
    rw [task_of_put found] at waits ⊢
    simp only [perform_journal, returnsSince, claimsSince, returned] at *
    have others : isClaim writer new = false := by
      cases writer with
      | claimTask call =>
        by_contra claims
        simp only [isClaim, Bool.not_eq_false, decide_eq_true_eq] at claims
        rw [claims] at waits
        cases waits
      | _ => rfl
    rw [others, if_neg Bool.false_ne_true] at attempt
    rcases counts.waits waits with waited | givenBack | left
    · have open_ := tallied.open_ old stored waited
      simp only [returnsSince] at open_
      push_cast
      omega
    · rw [if_pos givenBack]
      push_cast
      omega
    · rw [counts.limit, limit] at left
      push_cast
      omega

/-- A task that starts over has no attempts yet. -/
theorem Tallied.startsOver (settings : Settings) (state : QueueState)
    (anew : writer.startsOver = true) (limit : new.maxAttempts = settings.maxAttempts)
    (attempt : new.attempt = 0) :
    Tallied settings (state.perform writer (.task taskId (some new))) taskId := by
  have positive := settings.attempts_positive
  have fresh : ∀ marks, countSince marks taskId ((writer, .task taskId (some new)) ::
      state.journal) = 0 := by
    intro marks
    rw [countSince, if_pos rfl, if_pos anew]
  constructor
  · simp only [perform_journal, claimsSince, returnsSince, fresh]
    omega
  · intro task found
    rw [task_of_put found, limit]
  · intro task found
    rw [task_of_put found, attempt, perform_journal, claimsSince, fresh]
    rfl
  · intro task found _
    rw [task_of_put found, attempt, perform_journal, returnsSince, fresh]
    omega

/-- A deleted task keeps the bound on its claims. -/
theorem Tallied.delete (tallied : Tallied settings state taskId)
    (goesOn : writer.startsOver = false) :
    Tallied settings (state.perform writer (.task taskId none)) taskId := by
  have absent : ∀ task, (state.perform writer (.task taskId none)).store.tasks[taskId]? ≠
      some task := by
    intro task found
    rw [perform_store, apply, getElem?_assign_self] at found
    cases found
  constructor
  · simpa [perform_journal, claimsSince, returnsSince, countSince_goesOn _ _ goesOn]
      using tallied.bounded
  · exact fun task found => absurd found (absent task)
  · exact fun task found => absurd found (absent task)
  · exact fun task found => absurd found (absent task)

/-- A write that claims nothing counts nothing. -/
theorem Counts.unclaimed (goesOn : writer.startsOver = false)
    (unclaimed : isClaim writer new = false) (limit : new.maxAttempts = old.maxAttempts)
    (attempt : new.attempt = old.attempt)
    (waits : TaskState.runnable new.state = true →
      TaskState.runnable old.state = true ∨ isReturn writer new = true ∨
        new.attempt < new.maxAttempts) : Counts writer old new where
  goesOn := goesOn
  limit := limit
  attempt := by rw [attempt, unclaimed, if_neg Bool.false_ne_true, Int.add_zero]
  waited claims := by rw [unclaimed] at claims; cases claims
  waits := waits

/-- Every move of a task other than a retry and an expiry is counted. -/
theorem TaskMove.counts (move : TaskMove env writer (some old) (some new))
    (other : writer ≠ .createRequest) (unexpired : writer ≠ .expireClaims)
    (unretried : writer ≠ .retryTask) : Counts writer old new := by
  have never : ∀ {current target : TaskState}, current = target →
      TaskState.runnable target = false → TaskState.runnable current = true → False := by
    rintro current target rfl no yes
    rw [no] at yes
    cases yes
  cases move with
  | created => exact absurd rfl other
  | retried => exact absurd rfl unretried
  | deadlineExpired | claimExpired | expirySettled => exact absurd rfl unexpired
  | requeued call _ waiting =>
    refine .unclaimed rfl rfl rfl rfl fun _ => .inl ?_
    rw [waiting]
    rfl
  | claimed call duration _ queued =>
    refine ⟨rfl, rfl, rfl, ?_, fun waits => (never rfl rfl waits).elim⟩
    intro _
    rw [queued]
    rfl
  | released | reassigned
  | fenced => exact .unclaimed rfl rfl rfl rfl fun _ => .inr (.inl rfl)
  | reportedFailure settings now result _ held =>
    refine .unclaimed rfl rfl rfl rfl fun waits => .inr (.inr ?_)
    cases again : retriesLeft result old with
    | true =>
      simp only [retriesLeft, decide_eq_true_eq] at again
      exact again.2
    | false => exact (@never _ .failed (by simp [WorkQueue.reportedFailure, again]) rfl waits).elim
  | recovered clock _ expired =>
    refine .unclaimed rfl rfl rfl rfl fun waits => .inr (.inr ?_)
    by_contra spent
    exact never (if_pos (.inl (not_lt.mp spent))) rfl waits
  | siblingCancelled =>
    exact Counts.unclaimed rfl rfl rfl rfl fun waits => (never rfl rfl waits).elim
  | cancelled
  | succeeded => exact Counts.unclaimed rfl rfl rfl rfl fun waits => (never rfl rfl waits).elim
  | siblingRepeated | renewed | dispatched => exact Counts.unclaimed rfl rfl rfl rfl Or.inl

/-- The two writes of an expiry are counted: a task past its limit does not wait. -/
theorem expireTask_counts (now : Int) (task : TaskRecord) :
    Counts .expireClaims task (deadlineExpired now task) ∧
      Counts .expireClaims task (claimExpired now task) ∧
      Counts .expireClaims (claimExpired now task)
        (expirySettled (expiryTarget now task) (claimExpired now task)) := by
  have over_ : TaskState.runnable .failed = true → False := by decide
  have between : TaskState.runnable .expired = true → False := by decide
  refine ⟨.unclaimed rfl rfl rfl rfl fun waits => (over_ waits).elim,
    .unclaimed rfl rfl rfl rfl fun waits => (between waits).elim,
    .unclaimed rfl rfl rfl rfl fun waits => .inr (.inr ?_)⟩
  by_contra spent
  have target : expiryTarget now task = .failed := if_pos (.inl (not_lt.mp spent))
  rw [expirySettled, target] at waits
  exact over_ waits

/-- An update, other than by an expiry, keeps the tallies. -/
theorem Update.tallied {writers : List Writer} (others : .expireClaims ∉ writers)
    (update : Update env settings permits state next) (adds : Adds writers state next)
    (tallied : ∀ taskId, Tallied settings state taskId) (taskId : String) :
    Tallied settings next taskId := by
  cases update with
  | task writer other record move present =>
    by_cases same : other = taskId
    · subst same
      have unexpired : writer ≠ .expireClaims := by
        rintro rfl
        exact others adds.head.1
      cases record with
      | none =>
        refine (tallied other).delete ?_
        have touched := adds.head.2
        cases writer <;> first | rfl | cases touched
      | some new =>
        obtain ⟨old, stored, _⟩ := move.origin present
        rw [stored] at move
        by_cases retries : writer = .retryTask
        · subst retries
          cases move with
          | retried now deadline _ failed =>
            exact .startsOver settings state rfl ((tallied other).limit old stored) rfl
        · exact (tallied other).put stored (move.counts present unexpired retries)
    · exact (tallied taskId).other writer fun _ => by simp [same]
  | create call permitted absent =>
    refine (Tallied.other ?_ _ (by simp)).other _ (by simp)
    refine List.foldlRecOn (motive := fun current => ∀ other, Tallied settings current other) _ _
      (fun other => (tallied other).other _ (by simp)) ?_ taskId
    intro current before task member other
    obtain ⟨work, _, rfl⟩ := List.mem_map.mp member
    by_cases same : (createdTask env settings call work).taskId = other
    · subst same
      exact .startsOver settings current rfl rfl rfl
    · exact (before other).other _ fun _ => by simp [same]
  | forget writer requestId first second childless both =>
    rcases both with ⟨rfl, rfl⟩ | ⟨rfl, rfl⟩ <;>
      exact ((tallied taskId).other writer (by simp)).other writer (by simp)
  | request | remember | metadata => exact (tallied taskId).other _ (by simp)
  | neutral writer write neutral =>
    refine (tallied taskId).other writer ?_
    rintro record rfl
    cases neutral

/-- Updates, other than by an expiry, keep the tallies. -/
theorem Moves.tallied {writers : List Writer} (others : .expireClaims ∉ writers)
    (moves : Moves env settings {} writers state next) (owned : Owned env state.store)
    (tallied : ∀ taskId, Tallied settings state taskId) :
    ∀ taskId, Tallied settings next taskId := by
  refine @Updates.rule writers _ _ env settings {} (fun first second =>
      (∀ taskId, Tallied settings first taskId) → ∀ taskId, Tallied settings second taskId)
    (fun before => before) (fun left right before => right (left before))
    (fun _ _ _ update adds before => update.tallied others adds before) owned
    (moves.leads owned) moves.within.adds tallied

/-- The expiry of claims keeps the tallies. -/
theorem expireClaims_tallied (now : Int) (owned : Owned env state.store)
    (tallied : ∀ taskId, Tallied settings state taskId) :
    ∀ taskId, Tallied settings (expireClaims now state).2 taskId := by
  have visits : ∀ (current : QueueState) (task : TaskRecord),
      current.store.tasks[task.taskId]? = some task →
      (∀ taskId, Tallied settings current taskId) →
        ∀ taskId, Tallied settings (expireTask now task current) taskId := by
    intro current task stored before taskId
    obtain ⟨overdue, lapsed, settled⟩ := expireTask_counts now task
    by_cases same : task.taskId = taskId
    · subst same
      unfold expireTask
      split
      · exact (before task.taskId).put stored overdue
      · split
        · refine .put ((before task.taskId).put stored lapsed) ?_ settled
          rw [perform_store, apply, getElem?_assign_self]
        · exact before task.taskId
    · unfold expireTask
      split
      · exact (before taskId).other _ fun _ => by simp [same]
      · split
        · exact ((before taskId).other _ fun _ => by simp [same]).other _ fun _ => by simp [same]
        · exact before taskId
  have visited : ∀ taskId, Tallied settings (state.store.listTasks.foldl
      (fun current task => expireTask now task current) state) taskId := by
    exact owned.walkTasks (expireTask now) (fun first second =>
        (∀ taskId, Tallied settings first taskId) → ∀ taskId, Tallied settings second taskId)
      (fun before => before) (fun left right before => right (left before)) visits
      (expireTask_kept now) tallied
  have expired := @expireTasks_moves env settings {} [.expireClaims] state now (by simp)
  exact Moves.tallied (by simp)
    (@refreshRequests_moves env settings {} [.refreshRequests] _ _ (by simp)) (expired.owned owned)
    visited

/-- Every operation keeps the tallies. -/
theorem execute_tallied (owned : Owned env state.store)
    (tallied : ∀ taskId, Tallied settings state taskId) (operation : Operation) :
    ∀ taskId, Tallied settings (execute env settings state operation) taskId := by
  have unexpired : .expireClaims ∉ operation.writers →
      ∀ taskId, Tallied settings (execute env settings state operation) taskId := fun others =>
    Moves.tallied others (execute_moves state operation operation.permitted_all) owned tallied
  cases operation with
  | expireClaims now => exact expireClaims_tallied now owned tallied
  | recover clock =>
    have cleaned := @recoverRecords_moves env settings {} [.recover] state (by simp) clock
    exact expireClaims_tallied clock.expire (cleaned.owned owned)
      (cleaned.tallied (by simp) owned tallied)
  | acceptResult result agentLeaseId now cancelNow =>
    have expired : ∀ taskId, Tallied settings (expireClaims now state).2 taskId :=
      expireClaims_tallied now owned tallied
    have expiredOwned := owned.expireClaims now
    rcases @acceptResult_cases env settings result agentLeaseId now cancelNow state with
      same | same | ⟨task, stored, _, same | ⟨claim, settled, saved, move, same⟩⟩
    · simpa only [execute, same] using tallied
    · simpa only [execute, same] using expired
    · simp only [execute, same]
      exact Moves.tallied (by simp)
        (@cancelRequest_moves env settings {} [.cancelRequest] _ _ _ _ (by simp)) expiredOwned
        expired
    · simp only [execute, same]
      exact Moves.tallied (by simp) (@writeAcceptance_moves env settings {}
        [.acceptResult, .refreshRequests] _ _ _ _ (by simp) (by simp) _ _ _ stored move) expiredOwned expired
  | _ => exact unexpired (by simp)

end Tallied

/-- The tallies hold in every run. -/
theorem run_tallied (env : Environment) (settings : Settings) (operations : List Operation) :
    ∀ taskId, Tallied settings (run env settings operations) taskId := by
  induction operations using List.reverseRecOn with
  | nil =>
    have positive := settings.attempts_positive
    intro taskId
    refine ⟨?_, ?_, ?_, ?_⟩
    · simp only [run, List.foldl_nil, claimsSince, returnsSince, countSince]
      omega
    all_goals
      intro task stored
      simp [run] at stored
  | append_singleton earlier operation ih =>
    rw [run_append_singleton]
    exact execute_tallied (run_owned earlier) ih operation

/-- In every run, a task is claimed since its creation or last retry at most
`max_attempts` times and once more for each claim that `release_claim`,
`reassign_fenced_claims` or `fence_claims` gave back. -/
theorem claims_le_attempts_and_returns (env : Environment) (settings : Settings)
    (operations : List Operation) (taskId : String) :
    (claimsSince taskId (run env settings operations).journal : Int) ≤
      settings.maxAttempts + returnsSince taskId (run env settings operations).journal :=
  (run_tallied env settings operations taskId).bounded

/-- With a single attempt allowed, a claim that was never delivered leads to a second
claim of the task. -/
theorem undelivered_claim_repeated :
    let env := .transparent
    let call := smallRequest 1 "g" 1
    let claim := firstClaim env call (smallTask 1) "token"
    let journal := (run env (.clamped 60 1 1 1)
      [.createRequest call, .claimTask claim, .releaseClaim claim.taskId "token" "undelivered" 2000,
        .claimTask { claim with claimToken := "other", nowMs := 3000 }]).journal
    (Settings.clamped 60 1 1 1).maxAttempts = 1 ∧ claimsSince claim.taskId journal = 2 ∧
      returnsSince claim.taskId journal = 1 := by
  decide +kernel

/-! ## Stored answers belong to counted attempts -/

/-- A stored answer belongs to a stored task and to an attempt that it has counted. -/
def Answered (store : Store) : Prop :=
  ∀ (key : Versioned) (answer : ResultRecord), store.results[key]? = some answer →
    ∃ task, store.tasks[key.name]? = some task ∧ key.number ≤ task.attempt

/-- The functions that add tasks or advance them, and write no answers. -/
@[simp]
def Writer.keepsAnswers : Writer → Bool
  | .retryTask | .recover | .pruneTerminal | .acceptResult => false
  | _ => true

section Answered

variable {env : Environment} {settings : Settings} {permits : Permits} {state next : QueueState}

theorem TaskMove.attempt_le (move : TaskMove env writer (some old) (some new))
    (other : writer ≠ .createRequest) (unretried : writer ≠ .retryTask) :
    old.attempt ≤ new.attempt := by
  cases move with
  | created => exact absurd rfl other
  | retried => exact absurd rfl unretried
  | claimed => exact Int.le_add_of_nonneg_right (by decide)
  | _ => exact le_refl _

theorem deleteResults_results (writer : Writer) (taskId : String) (state : QueueState)
    (key : Versioned) :
    (deleteResults writer taskId state).store.results[key]? =
      if key.name = taskId then none else state.store.results[key]? := by
  rcases entries_after_writes results (fun current other => current.perform writer
      (.result other none)) id (fun _ => none) (fun _ _ => rfl) (state.store.resultKeys taskId) state
    key with ⟨_, inside, rfl, found⟩ | ⟨others, found⟩
  · rw [if_pos (by simpa using (List.mem_filter.mp inside).2)]
    exact found
  · refine found.trans ?_
    split
    · next own =>
      cases stored : state.store.results[key]? with
      | none => rfl
      | some answer =>
        refine absurd rfl (others key ?_)
        exact List.mem_filter.mpr ⟨List.mem_map.mpr ⟨(key, answer),
          Std.ExtTreeMap.mem_toList_iff_getElem?_eq_some.mpr stored, rfl⟩, by simp [own]⟩
    · rfl

variable (covered : Answered state.store)
include covered

/-- Without new answers, tasks whose attempts do not fall keep the answers covered. -/
theorem Answered.advance
    (results : ∀ (key : Versioned) (answer : ResultRecord),
      next.store.results[key]? = some answer → state.store.results[key]? = some answer)
    (attempts : ∀ (key : Versioned) (answer : ResultRecord) (task : TaskRecord),
      next.store.results[key]? = some answer → state.store.tasks[key.name]? = some task →
      ∃ later, next.store.tasks[key.name]? = some later ∧ task.attempt ≤ later.attempt) :
    Answered next.store := by
  intro key answer found
  obtain ⟨task, stored, counted⟩ := covered key answer (results key answer found)
  obtain ⟨later, kept, grown⟩ := attempts key answer task found stored
  exact ⟨later, kept, counted.trans grown⟩

/-- Rewriting a task without lowering its attempts. -/
theorem Answered.put (writer : Writer) (stored : state.store.tasks[taskId]? = some old) (grown : old.attempt ≤ new.attempt) :
    Answered (state.perform writer (.task taskId (some new))).store := by
  refine covered.advance (fun key answer found => found) ?_
  intro key answer task _ found
  by_cases same : taskId = key.name
  · subst same
    rw [stored] at found
    cases found
    exact ⟨new, getElem?_assign_self _ _ _, grown⟩
  · exact ⟨task, (getElem?_assign_of_ne _ _ same).trans found, le_refl _⟩

theorem Update.answered {writers : List Writer}
    (keeping : ∀ writer ∈ writers, writer.keepsAnswers = true) (owned : Owned env state.store)
    (update : Update env settings permits state next) (adds : Adds writers state next) :
    Answered next.store := by
  cases update with
  | task writer taskId record move present =>
    obtain ⟨member, touched⟩ := adds.head
    have own := keeping writer member
    cases record with
    | none => cases writer <;> first | (cases touched; done) | cases own
    | some new =>
      obtain ⟨old, stored, _⟩ := move.origin present
      rw [stored] at move
      refine covered.put writer stored (move.attempt_le present ?_)
      rintro rfl
      cases own
  | create call permitted absent =>
    refine covered.advance ?_ ?_
    · intro key answer found
      simp only [writeRequest, perform_store, apply] at found
      rw [view_after_puts results (fun _ _ _ => rfl)] at found
      exact found
    · intro key answer task _ stored
      refine ⟨task, ?_, le_refl _⟩
      rcases getElem?_writeRequest env settings call state key.name with
        ⟨work, _, named, _⟩ | ⟨_, same⟩
      · have unused := owned.unused call absent work
        rw [← named] at stored
        exact absurd (stored.symm.trans unused) (by simp)
      · exact same.trans stored
  | forget writer requestId first second childless both =>
    rcases both with ⟨rfl, rfl⟩ | ⟨rfl, rfl⟩
    · exact covered
    · exact covered
  | request | remember | metadata => exact covered
  | neutral writer write neutral =>
    cases write with
    | result key record =>
      obtain ⟨member, touched⟩ := adds.head
      have own := keeping writer member
      cases writer <;> first | cases touched | cases own
    | _ => first | exact covered | cases neutral

theorem Moves.answered {writers : List Writer}
    (keeping : ∀ writer ∈ writers, writer.keepsAnswers = true)
    (moves : Moves env settings {} writers state next) (owned : Owned env state.store) :
    Answered next.store :=
  @Updates.rule writers _ _ env settings {}
    (fun first second => Answered first.store → Answered second.store) (fun before => before)
    (fun left right before => right (left before))
    (fun _ _ owned update adds before => update.answered before keeping owned adds) owned
    (moves.leads owned) moves.within.adds covered

theorem refreshRequests_answered (settings : Settings) (now : Int) (owned : Owned env state.store) :
    Answered (refreshRequests now state).store :=
  Moves.answered covered (by simp)
    (@refreshRequests_moves env settings {} [.refreshRequests] _ _ (by simp)) owned

theorem expireClaims_answered (settings : Settings) (now : Int) (owned : Owned env state.store) :
    Answered (expireClaims now state).2.store :=
  @Moves.answered env settings _ _ covered [.expireClaims, .refreshRequests] (by simp)
    (expireClaims_moves (by simp) (by simp)) owned

/-- A task may go or start over once its answers are deleted. -/
theorem Answered.replace (writer : Writer) (taskId : String) (record : Option TaskRecord) :
    Answered ((deleteResults writer taskId state).perform writer (.task taskId record)).store := by
  have tasks : (deleteResults writer taskId state).store.tasks = state.store.tasks :=
    deleteResults_view tasks (fun _ _ _ => rfl) writer taskId state
  have gone : ∀ (key : Versioned) (answer : ResultRecord),
      (deleteResults writer taskId state).store.results[key]? = some answer →
        key.name ≠ taskId ∧ state.store.results[key]? = some answer := by
    intro key answer found
    rw [deleteResults_results] at found
    split at found
    · cases found
    · next other => exact ⟨other, found⟩
  refine covered.advance (fun key answer found => (gone key answer found).2) ?_
  intro key answer task found stored
  refine ⟨task, ?_, le_refl _⟩
  rw [perform_store, apply, tasks,
    getElem?_assign_of_ne _ _ (Ne.symm (gone key answer found).1)]
  exact stored

/-! ### The operations that touch answers -/

theorem retryTask_answered (taskId : String) (now : Int) :
    Answered (retryTask taskId now state).2.store := by
  rcases retryTask_cases taskId now state with refused | ⟨task, request, _, _, _, _, shape⟩
  · rw [refused]
    exact covered
  · rw [shape]
    exact covered.replace .retryTask taskId _

theorem acceptResult_answered_attempts (owned : Owned env state.store) (result : TaskResult)
    (agentLeaseId : String) (now cancelNow : Int) :
    Answered (acceptResult env settings result agentLeaseId now cancelNow state).2.store := by
  have expired := expireClaims_answered covered settings now owned
  have expiredOwned := owned.expireClaims now
  rcases @acceptResult_cases env settings result agentLeaseId now cancelNow state with
    same | same | ⟨task, stored, _, same | ⟨claim, settled, saved, move, same⟩⟩
  · rw [same]
    exact covered
  · rw [same]
    exact expired
  · rw [same]
    exact @Moves.answered env settings _ _ expired [.cancelRequest] (by simp)
      (cancelRequest_moves (by simp)) expiredOwned
  · rw [same]
    have attempt := move.attempt_le (by simp) (by simp)
    have written := expired.put .acceptResult stored attempt
    refine @refreshRequests_answered env _ ?_ settings now ?_
    · intro key answer found
      simp only [perform_store, apply, getElem?_assign] at found ⊢
      split at found
      · next own =>
        refine ⟨settled, ?_, ?_⟩
        · rw [← own, if_pos rfl]
        · rw [← own]
      · have before := written key answer found
        simpa only [perform_store, apply, getElem?_assign] using before
    · have settles : Moves env settings {} [.acceptResult] (expireClaims now state).2
          ((expireClaims now state).2.perform .acceptResult (.task result.taskId (some settled))) :=
        .task (by simp) stored move (by simp)
      exact (settles.owned expiredOwned).neutral_update .acceptResult rfl

theorem pruneTerminal_answered (retentionSeconds now : Int) :
    Answered (pruneTerminal env retentionSeconds now state).2.store := by
  refine List.foldlRecOn (motive := fun current : QueueState => Answered current.store) _ _ covered ?_
  intro current before requestId _
  simp only [pruneRequest]
  split
  · exact before
  next request _ =>
    split
    · refine List.foldlRecOn (motive := fun inner : QueueState => Answered inner.store) _ _ before ?_
      intro inner before taskId _
      obtain ⟨swept, origin, shape⟩ := pruneTask_cases env request taskId inner
      simp only [shape]
      refine .replace ?_ _ _ _
      rcases origin with rfl | ⟨generationId, outputKeys, keep, rfl⟩
      · exact before
      · have results := pruneStaging_view results (fun _ _ _ => rfl) env generationId
          outputKeys keep inner
        have tasks := pruneStaging_view tasks (fun _ _ _ => rfl) env generationId
          outputKeys keep inner
        intro key answer found
        rw [results] at found
        rw [tasks]
        exact before key answer found
    · exact before

theorem recoverRecords_answered (intact : Intact state.store) (owned : Owned env state.store)
    (clock : RecoverClock) :
    Answered (recoverRecords clock state).store := by
  obtain ⟨_, sameTasks⟩ := intact.recoverRequests clock
  have sameResults : ((listing state.store.requests).foldl
      (fun current request => recoverRequest clock request current) state).store.results =
        state.store.results := by
    refine view_foldl results _ ?_ _ state
    intro current request
    unfold recoverRequest
    split
    · unfold markMissing
      split <;> rfl
    · exact deleteTasks_view results (fun _ _ _ => rfl) .recover request.taskIds current
  have settled : Answered ((listing state.store.requests).foldl
      (fun current request => recoverRequest clock request current) state).store := by
    intro key answer found
    rw [sameResults] at found
    rw [sameTasks]
    exact covered key answer found
  have settledOwned : Leads env (.clamped 1 1 1 1) {} state
      ((listing state.store.requests).foldl
        (fun current request => recoverRequest clock request current) state) :=
    recoverRequests_leads clock
  exact ((settledOwned owned).owned owned).walkTasks (recoverTask clock _)
    (fun first second => Answered first.store → Answered second.store) (fun before => before)
    (fun left right before => right (left before))
    (fun current task stored before => by
      unfold recoverTask
      split
      · exact before.replace .recover task.taskId none
      · split
        · exact before.put .recover stored (le_refl _)
        · exact before)
    (recoverTask_kept clock _) settled

/-- Every operation keeps the answers covered. -/
theorem execute_answered (intact : Intact state.store) (owned : Owned env state.store)
    (operation : Operation) :
    Answered (execute env settings state operation).store := by
  have keeps : (∀ writer ∈ operation.writers, writer.keepsAnswers = true) →
      Answered (execute env settings state operation).store := fun keeping =>
    Moves.answered covered keeping (execute_moves state operation operation.permitted_all) owned
  cases operation with
  | retryTask taskId now => exact retryTask_answered covered taskId now
  | acceptResult result agentLeaseId now cancelNow =>
    exact acceptResult_answered_attempts covered owned result agentLeaseId now cancelNow
  | recoverRecords clock => exact recoverRecords_answered covered intact owned clock
  | recover clock =>
    exact expireClaims_answered (recoverRecords_answered covered intact owned clock) settings
      clock.expire (owned.recoverRecords clock)
  | pruneTerminal retentionSeconds now => exact pruneTerminal_answered covered retentionSeconds now
  | _ => exact keeps (by simp)

end Answered

/-- In every run, stored answers belong to counted attempts of stored tasks. -/
theorem run_answered (env : Environment) (settings : Settings) (operations : List Operation) :
    Answered (run env settings operations).store := by
  induction operations using List.reverseRecOn with
  | nil =>
    intro key answer found
    simp [run] at found
  | append_singleton earlier operation ih =>
    rw [run_append_singleton]
    exact execute_answered ih (run_intact env settings earlier) (run_owned earlier) operation

/-- Requests, tasks, claims and answers fit together in every reachable store. -/
theorem run_consistent (env : Environment) (settings : Settings) (operations : List Operation) :
    let state := run env settings operations
    Owned env state.store ∧ Intact state.store ∧ Answered state.store ∧
      ∀ taskId, Tallied settings state taskId :=
  ⟨run_owned _, run_intact .., run_answered env settings _, run_tallied env settings _⟩

end ShortcutProxy.WorkQueue
