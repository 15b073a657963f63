import ShortcutProxy.QueueOperations

/-!
# Delivering an accepted report again

An Agent that misses the acknowledgement of its report sends the report again.
`accept_result` then finds the stored answer of the attempt and compares the
report with it. The stored answer was written by one of two branches, each of
which keeps a part of the report only: a success keeps no error code, a failure
keeps no output and fills in an error code, and neither keeps the membership
version and the worker fence. The comparison reads a part that was not kept as
zero or as the empty text, so it recognizes exactly the reports that had these
values to begin with.

Stored answers are never overwritten. Other operations delete them at most, and
another report finds the attempt answered.
-/
namespace ShortcutProxy.WorkQueue

open Contract Generation Records

/-! ## Stored answers stay -/

/-- Stored answers are those there were, or some of them. -/
def OnlyDropsResults (first second : QueueState) : Prop :=
  ∀ key : Versioned, second.store.results[key]? = first.store.results[key]? ∨
    second.store.results[key]? = none

theorem OnlyDropsResults.perform (state : QueueState) {writer : Writer} {write : Write}
    (other : writer ≠ .acceptResult) (touched : writer.touches write = true) :
    OnlyDropsResults state (state.perform writer write) := by
  intro key
  cases write with
  | result answered record =>
    cases record with
    | none =>
      rw [QueueState.perform_store, Store.apply, getElem?_assign]
      split
      · exact .inr rfl
      · exact .inl rfl
    | some answer => cases writer <;> first | exact absurd rfl other | cases touched
  | _ => exact .inl rfl

/-- Functions other than `accept_result` add no answers. -/
theorem Within.onlyDropsResults {writers : List Writer} {first second : QueueState}
    (within : Within writers first second) (others : .acceptResult ∉ writers) :
    OnlyDropsResults first second := by
  obtain ⟨writes, rfl, allowed⟩ := within
  induction writes generalizing first with
  | nil => exact fun key => .inl rfl
  | cons entry rest ih =>
    have own := allowed entry List.mem_cons_self
    have drops := OnlyDropsResults.perform first (fun same => others (same ▸ own.1)) own.2
    intro key
    rcases ih (fun later inside => allowed later (List.mem_cons_of_mem _ inside))
      key with kept | gone
    · rcases drops key with before | before
      · exact .inl (kept.trans before)
      · exact .inr (kept.trans before)
    · exact .inr gone

section Acceptance

variable {env : Environment} {settings : Settings} {result : TaskResult} {agentLeaseId : String}
  {now cancelNow : Int} {state after : QueueState}

/-- The result entry that an admitted report leaves, by the branch it takes. -/
def savedEntry (now : Int) (result : TaskResult) (claim : Claim) : SavedResult :=
  if result.ok then successEntry now result claim else failureEntry now result

theorem settleResult_ok {store : Store} {claim : Claim} {task settled : TaskRecord}
    {saved : SavedResult}
    (passed : settleResult env settings store now result claim task = .ok (settled, saved)) :
    settled.attempt = task.attempt ∧ saved = savedEntry now result claim := by
  unfold settleResult at passed
  unfold savedEntry
  split at passed
  · next good =>
    split at passed
    · cases passed
    · split at passed
      · cases passed
      · cases passed
        exact ⟨rfl, (if_pos good).symm⟩
  · next bad =>
    cases passed
    exact ⟨rfl, (if_neg bad).symm⟩

/-- The stored answer to an admitted report. -/
def answerTo (env : Environment) (now : Int) (result : TaskResult) (agentLeaseId : String)
    (claim : Claim) (settled : TaskState) : ResultRecord where
  taskId := result.taskId
  attempt := result.attempt
  state := settled
  result := savedEntry now result claim
  agentLeaseHash := env.hash agentLeaseId

/-- What reporting does to the stored answers: it leaves them and does not accept
the report, or it answers the attempt. -/
def Answers (env : Environment) (result : TaskResult) (agentLeaseId : String) (now : Int)
    (before : Store) (outcome : Except QueueError Ack × QueueState) : Prop :=
  (outcome.2.store.results = before.results ∧
      ∀ ack, outcome.1 = .ok ack → ack.reasonCode ≠ .accepted) ∨
    ∃ claim settled, outcome.2.store.results =
      assign before.results ⟨result.taskId, result.attempt⟩
        (some (answerTo env now result agentLeaseId claim settled))

theorem Answers.unaccepted {before : Store} (ack : Ack)
    (same : after.store.results = before.results) (other : ack.reasonCode ≠ .accepted) :
    Answers env result agentLeaseId now before (.ok ack, after) := by
  refine .inl ⟨same, ?_⟩
  intro given shape
  cases shape
  exact other

theorem settleClaimed_answers {task : TaskRecord} {claim : Claim}
    (passed : checkClaim env task result agentLeaseId = .ok claim) :
    Answers env result agentLeaseId now state.store
      (.ok (settleClaimed env settings result now task claim state).1,
        (settleClaimed env settings result now task claim state).2) := by
  obtain ⟨_, _, _, _, attempt, lease, _, _⟩ := checkClaim_ok passed
  unfold settleClaimed
  cases outcome : settleResult env settings state.store now result claim task with
  | error ack =>
    refine .unaccepted ack rfl ?_
    unfold settleResult at outcome
    repeat' split at outcome
    all_goals cases outcome <;> simp [refused]
  | ok pair =>
    obtain ⟨sameAttempt, saved⟩ := settleResult_ok outcome
    refine .inr ⟨claim, pair.1.state, ?_⟩
    refine (refreshRequests_view Store.results (fun _ _ _ => rfl) (fun _ _ _ => rfl) now _).trans ?_
    simp only [QueueState.perform_store, Store.apply, answerTo, saved, sameAttempt, ← attempt,
      lease]

theorem acceptClaimed_answers {task : TaskRecord} {claim : Claim}
    (passed : checkClaim env task result agentLeaseId = .ok claim) :
    Answers env result agentLeaseId now state.store
      (acceptClaimed env settings result agentLeaseId now cancelNow task claim state) := by
  unfold acceptClaimed
  split
  · exact .unaccepted _ rfl (by simp [refused])
  · split
    · exact .unaccepted _ rfl (by simp [refused])
    · split
      · exact .inl ⟨rfl, fun ack failed => by cases failed⟩
      · split
        · refine .unaccepted _ ?_ (by simp)
          unfold cancelRequest
          split
          · rfl
          · refine view_foldl Store.results _ ?_ _ state
            intro current taskId
            unfold cancelTask
            split
            · rfl
            · split <;> rfl
        · exact settleClaimed_answers passed

/-- A call of `accept_result` answers its attempt only when the attempt is
unanswered. -/
theorem acceptResult_answers (result : TaskResult) (agentLeaseId : String) (now cancelNow : Int)
    (state : QueueState) :
    Answers env result agentLeaseId now state.store
      (acceptResult env settings result agentLeaseId now cancelNow state) := by
  have expired :=
    expireClaims_view Store.results (fun _ _ _ => rfl) (fun _ _ _ => rfl) now state
  unfold acceptResult
  split
  · next prior found =>
    refine .unaccepted _ rfl ?_
    unfold priorAck
    repeat' split
    all_goals simp
  · dsimp only
    split
    · exact .unaccepted _ expired (by simp)
    · next task stored =>
      split
      · refine .unaccepted _ expired ?_
        unfold succeededAck
        dsimp only
        split <;> simp
      · split
        · next ack failed =>
          refine .unaccepted ack expired ?_
          unfold checkClaim at failed
          repeat' split at failed
          all_goals cases failed <;> simp [staleAck, refused]
        · next claim passed =>
          have answered := @acceptClaimed_answers env settings result agentLeaseId now cancelNow
            (expireClaims now state).2 task claim passed
          unfold Answers at answered ⊢
          rwa [expired] at answered

/-- A report for an answered attempt changes nothing. -/
theorem acceptResult_answered {prior : ResultRecord}
    (found : state.store.results[(⟨result.taskId, result.attempt⟩ : Versioned)]? = some prior) :
    acceptResult env settings result agentLeaseId now cancelNow state =
      (.ok (priorAck env prior result agentLeaseId), state) := by
  unfold acceptResult
  rw [found]

end Acceptance

variable (env : Environment) (settings : Settings)

/-- One operation keeps a stored answer or deletes it. -/
theorem execute_answer (operation : Operation) {state : QueueState} {key : Versioned}
    {answer : ResultRecord} (stored : state.store.results[key]? = some answer) :
    (execute env settings state operation).store.results[key]? = some answer ∨
      (execute env settings state operation).store.results[key]? = none := by
  by_cases accepts : .acceptResult ∈ operation.writers
  · cases operation with
    | acceptResult result agentLeaseId now cancelNow =>
      left
      change (acceptResult env settings result agentLeaseId now cancelNow
        state).2.store.results[key]? = some answer
      by_cases own : (⟨result.taskId, result.attempt⟩ : Versioned) = key
      · rw [acceptResult_answered (own ▸ stored)]
        exact stored
      · rcases acceptResult_answers result agentLeaseId now cancelNow state
          with ⟨same, _⟩ | ⟨claim, settled, same⟩
        · rw [same]
          exact stored
        · rw [same, getElem?_assign_of_ne _ _ own]
          exact stored
    | _ => simp at accepts
  · rcases (execute_moves state operation
      operation.permitted_all).within.onlyDropsResults accepts key with kept | gone
    · exact .inl (kept.trans stored)
    · exact .inr gone

/-- An answer that is present throughout a run is the same throughout. -/
theorem answer_of_present (key : Versioned) (answer : ResultRecord) (later : List Operation)
    (state : QueueState) (stored : state.store.results[key]? = some answer)
    (present : ∀ count, ((later.take count).foldl (execute env settings)
      state).store.results[key]?.isSome = true) :
    (later.foldl (execute env settings) state).store.results[key]? = some answer := by
  induction later generalizing state with
  | nil => exact stored
  | cons operation rest ih =>
    have next := present 1
    rcases execute_answer env settings operation stored with kept | gone
    · exact ih _ kept fun count => present (count + 1)
    · rw [List.take_one, List.head?_cons, Option.toList_some, List.foldl_cons, List.foldl_nil,
        gone] at next
      cases next

/-! ## The repeated delivery -/

/-- The report has nothing that its stored answer would not have: no membership
version and no worker fence, and then a success has no error code, and a failure
has an error code and no output. -/
def Repeatable (result : TaskResult) : Prop :=
  result.membershipVersion = 0 ∧ result.workerFence = 0 ∧
    if result.ok then result.errorCode = ""
    else result.errorCode ≠ "" ∧ result.sizeBytes = 0 ∧ result.recordCount = 0 ∧
      result.contentHash = "" ∧ result.s3Etag = ""

instance (result : TaskResult) : Decidable (Repeatable result) :=
  inferInstanceAs (Decidable (_ ∧ _ ∧ if result.ok = true then _ else _))

/-- A report repeats its own stored answer exactly when nothing of it was left out. -/
theorem repeats_answerTo_iff (now : Int) (result : TaskResult) (agentLeaseId : String)
    (claim : Claim) (settled : TaskState) :
    (answerTo env now result agentLeaseId claim settled).repeats result = true ↔
      Repeatable result := by
  unfold Repeatable ResultRecord.repeats answerTo savedEntry
  cases result.ok with
  | true =>
    simp only [if_true, successEntry, Option.getD_some, Option.getD_none, decide_eq_true_eq,
      true_and, eq_comm (a := (0 : Int)), eq_comm (a := "")]
    constructor
    · rintro ⟨code, version, fence⟩
      exact ⟨version, fence, code⟩
    · rintro ⟨version, fence, code⟩
      exact ⟨code, version, fence⟩
  | false =>
    simp only [Bool.false_eq_true, if_false, failureEntry, Option.getD_none, decide_eq_true_eq,
      true_and, eq_comm (a := (0 : Int)), eq_comm (a := "")]
    constructor
    · rintro ⟨size, count, content, etag, code, version, fence⟩
      refine ⟨version, fence, ?_, size, count, content, etag⟩
      intro missing
      rw [if_pos missing, missing] at code
      exact absurd code (by decide)
    · rintro ⟨version, fence, code, size, count, content, etag⟩
      exact ⟨size, count, content, etag, if_neg code, version, fence⟩

/-- An accepted report that is delivered again under the same lease, at any later
time at which its answer is still stored, is acknowledged as a duplicate and
changes nothing, exactly when it is repeatable. -/
theorem redelivery_acknowledged_iff (env : Environment) (settings : Settings) (result : TaskResult)
    (agentLeaseId : String) (now cancelNow : Int) (state after : QueueState) (ack : Ack)
    (delivered : acceptResult env settings result agentLeaseId now cancelNow state =
      (.ok ack, after))
    (accepted : ack.reasonCode = .accepted) (later : List Operation)
    (present : ∀ count, ((later.take count).foldl (execute env settings)
      after).store.results[(⟨result.taskId, result.attempt⟩ : Versioned)]?.isSome = true)
    (again cancelAgain : Int) :
    (∃ answer, acceptResult env settings result agentLeaseId again cancelAgain
          (later.foldl (execute env settings) after) =
        (.ok answer, later.foldl (execute env settings) after) ∧
      answer.ok = true ∧ answer.duplicate = true) ↔ Repeatable result := by
  have effect := @acceptResult_answers env settings result agentLeaseId now cancelNow state
  rw [delivered] at effect
  rcases effect with ⟨_, refused⟩ | ⟨claim, settled, answered⟩
  · exact absurd accepted (refused ack rfl)
  · have stored : after.store.results[(⟨result.taskId, result.attempt⟩ : Versioned)]? =
        some (answerTo env now result agentLeaseId claim settled) := by
      rw [answered, getElem?_assign_self]
    have kept := answer_of_present env settings _ _ later after stored present
    rw [acceptResult_answered kept]
    have reply : priorAck env (answerTo env now result agentLeaseId claim settled) result
        agentLeaseId =
          { ok := (answerTo env now result agentLeaseId claim settled).repeats result
            state := some settled
            duplicate := (answerTo env now result agentLeaseId claim settled).repeats result
            terminal := settled.terminal
            reasonCode := if (answerTo env now result agentLeaseId claim settled).repeats result
              then .duplicate else .conflict } := by
      unfold priorAck
      rw [if_neg (fun apart => apart.2 rfl)]
      rfl
    rw [reply, ← repeats_answerTo_iff env now result agentLeaseId claim settled]
    constructor
    · rintro ⟨answer, same, positive, _⟩
      cases same
      exact positive
    · intro repeats
      exact ⟨_, rfl, repeats, repeats⟩

/-- A queue in which the task of a request is claimed, under a membership version
that is also the worker's fence, and its output is stored. -/
def claimedUnder (version : Int) : QueueState :=
  run env (.clamped 60 3 1 60)
    [.createRequest (smallRequest 1 "g" 1),
      .claimTask { firstClaim env (smallRequest 1 "g" 1) (smallTask 1) "k" with
        membershipVersion := version
        workerFence := version },
      .changeObject (firstOutputKey env (smallRequest 1 "g" 1) (smallTask 1) "k") (some [7])]

/-- The report of the Agent that holds this claim. -/
def reportUnder (version : Int) : TaskResult :=
  { firstReport env (smallRequest 1 "g" 1) (smallTask 1) "k" [7] with
    membershipVersion := version
    workerFence := version }

/-- The acknowledgement of a first delivery of this report and of a second one. -/
def deliverTwice (version : Int) :
    Except QueueError Ack × Except QueueError Ack :=
  let first := acceptResult env (.clamped 60 3 1 60) (reportUnder env version)
    "agent-lease" 1001 1001 (claimedUnder env version)
  let second := acceptResult env (.clamped 60 3 1 60) (reportUnder env version)
    "agent-lease" 1002 1002 first.2
  (first.1, second.1)

/-- The success of a worker with a fence is accepted, and then contradicts itself. -/
theorem fenced_report_contradicts_itself :
    deliverTwice .transparent 1 =
      (.ok { state := some .succeeded, terminal := true, reasonCode := .accepted },
        .ok { ok := false, state := some .succeeded, terminal := true, reasonCode := .conflict }) := by
  decide +kernel

/-- Without a membership the second delivery is a duplicate. -/
theorem unfenced_report_acknowledged :
    let delivered := (acceptResult .transparent (.clamped 60 3 1 60)
      (reportUnder .transparent 0) "agent-lease" 1001 1001 (claimedUnder .transparent 0)).2
    ∃ answer, acceptResult .transparent (.clamped 60 3 1 60) (reportUnder .transparent 0)
        "agent-lease" 1002 1002 delivered = (.ok answer, delivered) ∧
      answer.ok = true ∧ answer.duplicate = true := by
  have accepted : (acceptResult .transparent (.clamped 60 3 1 60)
      (reportUnder .transparent 0) "agent-lease" 1001 1001 (claimedUnder .transparent 0)).1 =
        .ok { state := some .succeeded, terminal := true, reasonCode := .accepted } := by
    decide +kernel
  refine (redelivery_acknowledged_iff .transparent (.clamped 60 3 1 60)
    (reportUnder .transparent 0) "agent-lease" 1001 1001 (claimedUnder .transparent 0) _ _
    (Prod.ext accepted rfl) rfl [] ?_ 1002 1002).mpr (by decide)
  intro count
  rw [List.take_nil]
  decide +kernel

end ShortcutProxy.WorkQueue
