import ShortcutProxy.IntactQueue

/-!
# What becomes of a finished request

Six operations rewrite the state of a request. `_refresh_requests` skips finished
and published requests, `retry_task` refuses published ones, and `recover` fails
a request only for a missing task. `cancel_request` makes no such test: it
overwrites the state of whatever request it is given.

The cancellation inside `accept_result` is reached through a claimed task and
therefore never meets a finished request. What remains is the call from outside:
in a run in which `cancel_request` is given no published and no failed request,
finished requests stay as they are until they are retried or pruned.
-/
namespace ShortcutProxy.WorkQueue

open Contract Generation Records TableMetadata

/-! ## Finished requests stay -/

/-- A published success stays one, and a failed or cancelled request keeps its state. -/
structure Absorbs (old new : RequestRecord) : Prop where
  published : old.published = true → old.state = .succeeded →
    new.published = true ∧ new.state = .succeeded
  stopped : old.state = .failed ∨ old.state = .cancelled → new.state = old.state

theorem Absorbs.refl (request : RequestRecord) : Absorbs request request where
  published published succeeded := ⟨published, succeeded⟩
  stopped _ := rfl

theorem Absorbs.trans {first second third : RequestRecord} (left : Absorbs first second)
    (right : Absorbs second third) : Absorbs first third := by
  constructor
  · intro published succeeded
    obtain ⟨still, stays⟩ := left.published published succeeded
    exact right.published still stays
  · intro stopped
    have same := left.stopped stopped
    rw [← same] at stopped ⊢
    exact right.stopped stopped

/-- An unfinished request has nothing to keep. -/
theorem Absorbs.of_unfinished {old : RequestRecord} (new : RequestRecord)
    (unfinished : old.state.terminal = false) : Absorbs old new := by
  constructor
  · intro _ succeeded
    rw [succeeded] at unfinished
    exact absurd unfinished (by decide)
  · rintro (failed | cancelled)
    · rw [failed] at unfinished
      exact absurd unfinished (by decide)
    · rw [cancelled] at unfinished
      exact absurd unfinished (by decide)

/-- A published request is the same. -/
def KeepsPublished (old new : RequestRecord) : Prop :=
  old.published = true → new = old

/-- Every request is still there, and its record is related to the earlier one. -/
def Follows (related : RequestRecord → RequestRecord → Prop) (first second : QueueState) : Prop :=
  ∀ (requestId : String) (request : RequestRecord),
    first.store.requests[requestId]? = some request →
      ∃ later, second.store.requests[requestId]? = some later ∧ related request later

/-- The functions that neither create nor delete requests. -/
@[simp]
def Writer.keepsRequests : Writer → Bool
  | .createRequest | .recover | .pruneTerminal => false
  | _ => true

section Following

variable {related : RequestRecord → RequestRecord → Prop}
  (reflexive : ∀ request, related request request)

include reflexive

theorem Follows.of_eq {first second : QueueState}
    (same : second.store.requests = first.store.requests) : Follows related first second :=
  fun _ request stored => ⟨request, same ▸ stored, reflexive request⟩

theorem Follows.put {state : QueueState} {requestId : String} {old new : RequestRecord}
    (writer : Writer) (stored : state.store.requests[requestId]? = some old)
    (goesOn : related old new) :
    Follows related state (state.perform writer (.request requestId (some new))) := by
  intro other request found
  by_cases same : requestId = other
  · subst same
    rw [stored] at found
    cases found
    exact ⟨new, getElem?_assign_self _ _ _, goesOn⟩
  · refine ⟨request, ?_, reflexive request⟩
    rw [QueueState.perform_store, Store.apply, getElem?_assign_of_ne _ _ same]
    exact found

variable {env : Environment} {settings : Settings} {permits : Permits} {writers : List Writer}
  {state next : QueueState}

theorem Update.follows (keeping : ∀ writer ∈ writers, writer.keepsRequests = true)
    (moves : ∀ writer ∈ writers, ∀ old new, RequestMove writer old new → related old new)
    (update : Update env settings permits state next) (adds : Adds writers state next) :
    Follows related state next := by
  cases update with
  | request writer requestId old new stored move =>
    exact .put reflexive writer stored (moves writer adds.head.1 old new move)
  | create call permitted absent =>
    obtain ⟨early, grown⟩ := @writeRequest_journal env settings call state
    cases keeping _ (adds.allowed grown _ List.mem_cons_self).1
  | forget writer requestId first second childless both =>
    have late := @Adds.allowed _ _ _ adds [(writer, second), (writer, first)] rfl
    have head := late (writer, second) List.mem_cons_self
    have other := late (writer, first) (List.mem_cons_of_mem _ List.mem_cons_self)
    have keeps := keeping writer head.1
    rcases both with ⟨rfl, rfl⟩ | ⟨rfl, rfl⟩
    · cases writer <;> first | (cases other.2; done) | cases keeps
    · cases writer <;> first | (cases head.2; done) | cases keeps
  | task | remember | metadata => exact .of_eq reflexive rfl
  | neutral writer write neutral =>
    cases write with
    | request requestId record => cases neutral
    | _ => exact .of_eq reflexive rfl

/-- A relation that every move of the listed functions establishes holds across
an operation of theirs. -/
theorem Moves.follows
    (transitive : ∀ first second third, related first second → related second third →
      related first third)
    (keeping : ∀ writer ∈ writers, writer.keepsRequests = true)
    (moves : ∀ writer ∈ writers, ∀ old new, RequestMove writer old new → related old new)
    (path : Moves env settings {} writers state next) (owned : Owned env state.store) :
    Follows related state next := by
  refine Updates.rule (.of_eq reflexive rfl) ?_
    (fun _ _ _ update adds => update.follows reflexive keeping moves adds) owned (path.leads owned)
    path.within.adds
  intro first second third left right requestId request stored
  obtain ⟨middle, found, kept⟩ := left requestId request stored
  obtain ⟨later, foundLater, keptLater⟩ := right requestId middle found
  exact ⟨later, foundLater, transitive _ _ _ kept keptLater⟩

end Following

/-- The functions that rewrite a request only after a test of its state. -/
@[simp]
def Writer.testsRequests : Writer → Bool
  | .cancelRequest | .retryTask | .recover => false
  | _ => true

theorem RequestMove.absorbs {writer : Writer} {old new : RequestRecord}
    (move : RequestMove writer old new)
    (tests : writer.testsRequests = true) : Absorbs old new := by
  cases move with
  | refreshed now target error request unpublished unfinished =>
    exact .of_unfinished _ unfinished
  | cancelled | retried | missing => cases tests
  | published now key request succeeded =>
    constructor
    · exact fun _ _ => ⟨rfl, succeeded⟩
    · exact fun _ => rfl

section Operations

variable {env : Environment} {settings : Settings} {state : QueueState}

theorem expireClaims_absorbs (settings : Settings) (owned : Owned env state.store) (now : Int) :
    Follows Absorbs state (expireClaims now state).2 :=
  Moves.follows .refl (fun _ _ _ => .trans) (by simp)
    (fun writer member old new move => move.absorbs (by revert writer; simp))
    (@expireClaims_moves env settings {} [.expireClaims, .refreshRequests] _ _ (by simp) (by simp))
    owned

theorem expireClaims_keepsPublished (settings : Settings) (owned : Owned env state.store)
    (now : Int) : Follows KeepsPublished state (expireClaims now state).2 := by
  refine Moves.follows (fun _ _ => rfl) ?_ (by simp) ?_
    (@expireClaims_moves env settings {} [.expireClaims, .refreshRequests] _ _ (by simp) (by simp))
    owned
  · intro first second third left right published
    have same := left published
    subst same
    exact right published
  · intro writer member old new move published
    cases move with
    | refreshed now target error request unpublished unfinished =>
      rw [unpublished] at published
      cases published
    | _ => simp at member

/-- Cancelling a request writes its record and no other. -/
theorem cancelRequest_follows {related : RequestRecord → RequestRecord → Prop}
    (reflexive : ∀ request, related request request) (requestId reason : String) (now : Int)
    (goesOn : ∀ request, state.store.requests[requestId]? = some request →
      related request
        { request with
          state := .cancelled
          error := env.safeError reason
          updatedAtMs := now }) :
    Follows related state (cancelRequest env requestId reason now state).2 := by
  unfold cancelRequest
  split
  · exact .of_eq reflexive rfl
  · next request stored =>
    have same : (request.taskIds.foldl (fun current taskId =>
        cancelTask now (env.safeError reason) taskId current) state).store.requests =
          state.store.requests :=
      view_foldl Store.requests _ (fun current taskId => cancelTask_requests)
        _ state
    intro other found foundStored
    rw [← same] at stored foundStored
    exact Follows.put reflexive _ stored (goesOn request (same ▸ stored)) other found foundStored

/-- Only a request that is not remembered is created. -/
theorem createRequest_absorbs (owned : Owned env state.store) (call : CreateCall) :
    Follows Absorbs state (createRequest env settings call state).2 := by
  unfold createRequest
  split
  · exact .of_eq .refl rfl
  · split
    · split <;> exact .of_eq .refl rfl
    · next absent =>
      split
      · exact .of_eq .refl rfl
      · intro requestId request stored
        have remembered := owned.remembered requestId request stored
        have different : env.hash call.identity ≠ requestId := by
          intro same
          rw [same, remembered] at absent
          cases absent
        refine ⟨request, ?_, .refl request⟩
        rw [writeRequest_requests, if_neg different]
        exact stored

/-- A claimed task belongs to an unfinished request. -/
theorem Intact.unfinished_of_claimed (intact : Intact state.store) (owned : Owned env state.store)
    {taskId : String} {task : TaskRecord} (stored : state.store.tasks[taskId]? = some task)
    (held : task.state = .claimed) (request : RequestRecord)
    (requested : state.store.requests[task.requestId]? = some request) :
    request.state.terminal = false := by
  obtain ⟨owner, found, inside⟩ := owned.taskListed taskId task stored
  rw [requested] at found
  cases found
  obtain ⟨same, sameStored, _, settled⟩ := intact.listed _ request requested taskId inside
  rw [stored] at sameStored
  cases sameStored
  rw [held] at settled
  by_contra finished
  exact absurd (settled (by simpa using finished)) (by decide)

/-- A report may finish a request but changes no finished one. -/
theorem acceptResult_absorbs (intact : Intact state.store) (owned : Owned env state.store)
    (result : TaskResult) (agentLeaseId : String) (now cancelNow : Int) :
    Follows Absorbs state (acceptResult env settings result agentLeaseId now cancelNow state).2 := by
  have expired := expireClaims_absorbs settings owned now
  have ownedExpired := owned.expireClaims now
  have onwards : ∀ after, Follows Absorbs (expireClaims now state).2 after →
      Follows Absorbs state after := by
    intro after later requestId request stored
    obtain ⟨middle, found, kept⟩ := expired requestId request stored
    obtain ⟨last, foundLast, keptLast⟩ := later requestId middle found
    exact ⟨last, foundLast, kept.trans keptLast⟩
  rcases @acceptResult_cases env settings result agentLeaseId now cancelNow state with
    same | same | ⟨task, stored, held, same | ⟨claim, settled, saved, move, same⟩⟩
  · rw [same]
    exact .of_eq .refl rfl
  · rw [same]
    exact expired
  · rw [same]
    refine onwards _ (cancelRequest_follows .refl _ _ _ ?_)
    intro request requested
    exact .of_unfinished _ (((intact_preserved env settings).expireClaims intact owned
      now).unfinished_of_claimed ownedExpired stored held request requested)
  · rw [same]
    refine onwards _ (Moves.follows .refl (fun _ _ _ => .trans)
      (by simp) ?_ (@writeAcceptance_moves env settings {}
        [.acceptResult, .refreshRequests] _ _ _ _ (by simp) (by simp) _ _ _ stored move) ownedExpired)
    intro writer member old new step
    exact step.absorbs (by revert writer; simp)

theorem pruneTerminal_requests (retentionSeconds now : Int) (requestId : String) :
    (pruneTerminal env retentionSeconds now state).2.store.requests[requestId]? =
        state.store.requests[requestId]? ∨
      (pruneTerminal env retentionSeconds now state).2.store.requests[requestId]? = none := by
  refine List.foldlRecOn (motive := fun current : QueueState =>
      current.store.requests[requestId]? = state.store.requests[requestId]? ∨
        current.store.requests[requestId]? = none) _ _ (.inl rfl) ?_
  intro current before other _
  rcases pruneRequest_cases env _ other current with same | ⟨_, _, requests, _⟩
  · rwa [same]
  · rw [requests, getElem?_assign]
    split
    · exact .inr rfl
    · exact before

end Operations

/-! ## Runs that cancel no finished request -/

/-- The call cancels no published and no failed request. -/
def Operation.SparesFinished (store : Store) : Operation → Prop
  | .cancelRequest requestId _ _ => ∀ request, store.requests[requestId]? = some request →
      request.published = false ∧ request.state ≠ .failed
  | _ => True

/-- The calls that the second half of the promise is about. -/
def Operation.cancelsOrRecovers : Operation → Bool
  | .cancelRequest _ _ _ | .recover _ | .recoverRecords _ => true
  | _ => false

/-- The request was pruned. -/
def Pruned (operation : Operation) (after : Store) (requestId : String) : Prop :=
  (∃ retentionSeconds now, operation = .pruneTerminal retentionSeconds now) ∧
    after.requests[requestId]? = none

/-- What an operation leaves of a finished request. -/
structure KeepsFinished (operation : Operation) (before after : Store) (requestId : String)
    (request : RequestRecord) : Prop where
  published : request.published = true → request.state = .succeeded →
    Pruned operation after requestId ∨ ∃ later, after.requests[requestId]? = some later ∧
      later.published = true ∧ later.state = .succeeded
  stopped : request.state = .failed ∨ request.state = .cancelled →
    Pruned operation after requestId ∨ ∃ later, after.requests[requestId]? = some later ∧
      (later.state = request.state ∨
        ∃ taskId ∈ request.taskIds, ∃ now, operation = .retryTask taskId now)
  untouched : request.published = true → operation.cancelsOrRecovers = true →
    after.requests[requestId]? = some request ∧
      ∀ taskId ∈ request.taskIds, after.tasks[taskId]? = before.tasks[taskId]?

section Steps

variable {env : Environment} {settings : Settings} {state : QueueState} {requestId : String}
  {request : RequestRecord} {operation : Operation}

/-- An operation of the other kinds that leaves the request alone keeps it. -/
theorem KeepsFinished.of_kept {before after : Store}
    (kept : after.requests[requestId]? = some request)
    (other : operation.cancelsOrRecovers = false) :
    KeepsFinished operation before after requestId request := by
  constructor
  · intro published succeeded
    exact .inr ⟨request, kept, published, succeeded⟩
  · intro _
    exact .inr ⟨request, kept, .inl rfl⟩
  · intro _ cancels
    rw [other] at cancels
    cases cancels

variable (stored : state.store.requests[requestId]? = some request)
include stored

/-- An operation of the other kinds that only absorbs keeps finished requests. -/
theorem KeepsFinished.of_absorbs {after : QueueState} (follows : Follows Absorbs state after)
    (untouched : request.published = true → operation.cancelsOrRecovers = true →
      after.store.requests[requestId]? = some request ∧
        ∀ taskId ∈ request.taskIds, after.store.tasks[taskId]? = state.store.tasks[taskId]?) :
    KeepsFinished operation state.store after.store requestId request := by
  obtain ⟨later, found, absorbs⟩ := follows requestId request stored
  constructor
  · intro published succeeded
    exact .inr ⟨later, found, absorbs.published published succeeded⟩
  · intro stopped
    exact .inr ⟨later, found, .inl (absorbs.stopped stopped)⟩
  · exact untouched

/-- The tasks of a published request do not change while tasks advance. -/
theorem Intact.published_tasks {after : QueueState} (intact : Intact state.store)
    (published : request.published = true) (advances : Advances state after) (taskId : String)
    (inside : taskId ∈ request.taskIds) :
    after.store.tasks[taskId]? = state.store.tasks[taskId]? := by
  obtain ⟨task, taskStored, _, settled⟩ := intact.listed _ request stored taskId inside
  obtain ⟨later, found, _, kept⟩ := advances taskId task taskStored
  rw [kept (settled (intact.finished _ request stored published))] at found
  exact found.trans taskStored.symm

theorem keepsFinished_cancel (intact : Intact state.store) (owned : Owned env state.store)
    (settings : Settings) (target reason : String) (now : Int)
    (spares : (Operation.cancelRequest target reason now).SparesFinished state.store) :
    KeepsFinished (.cancelRequest target reason now) state.store
      (cancelRequest env target reason now state).2.store requestId request := by
  refine .of_absorbs stored (cancelRequest_follows .refl _ _ _ ?_) ?_
  · intro found foundStored
    obtain ⟨unpublished, unfailed⟩ := spares found foundStored
    constructor
    · intro published
      rw [unpublished] at published
      cases published
    · rintro (failed | cancelled)
      · exact absurd failed unfailed
      · exact cancelled.symm
  · intro published _
    constructor
    · have kept : Follows KeepsPublished state (cancelRequest env target reason now state).2 := by
        refine cancelRequest_follows (fun _ _ => rfl) _ _ _ ?_
        intro found foundStored foundPublished
        rw [(spares found foundStored).1] at foundPublished
        cases foundPublished
      obtain ⟨later, found, same⟩ := kept requestId request stored
      rw [same published] at found
      exact found
    · exact intact.published_tasks stored published
        ((@cancelRequest_moves env settings {} [.cancelRequest] _ _ _ _ (by simp)).advances owned
          (by simp))

theorem keepsFinished_retry (owned : Owned env state.store) (taskId : String) (now : Int) :
    KeepsFinished (.retryTask taskId now) state.store (retryTask taskId now state).2.store requestId
      request := by
  rcases retryTask_cases taskId now state with refused | ⟨task, owner, taskStored, _, requested,
    unpublished, shape⟩
  · rw [refused]
    exact .of_absorbs stored (.of_eq .refl rfl)
      (fun _ other => by cases other)
  · rw [shape]
    have named := (owned.requestKey _ _ requested).1
    by_cases same : task.requestId = requestId
    · subst same
      rw [stored] at requested
      cases requested
      have found : (writeRetry taskId now task request state).store.requests[task.requestId]? =
          some (retriedRequest now request) := by
        rw [writeRetry_requests, named, getElem?_assign_self]
      obtain ⟨_, foundOwner, inside⟩ := owned.taskListed taskId task taskStored
      rw [stored] at foundOwner
      cases foundOwner
      constructor
      · intro published
        rw [unpublished] at published
        cases published
      · intro _
        exact .inr ⟨_, found, .inr ⟨taskId, inside, now, rfl⟩⟩
      · intro published
        rw [unpublished] at published
        cases published
    · have found : (writeRetry taskId now task owner state).store.requests[requestId]? =
          some request := by
        rw [writeRetry_requests, named, getElem?_assign_of_ne _ _ same]
        exact stored
      exact .of_kept found rfl

theorem keepsFinished_prune (retentionSeconds now : Int) :
    KeepsFinished (.pruneTerminal retentionSeconds now) state.store
      (pruneTerminal env retentionSeconds now state).2.store requestId request := by
  rcases @pruneTerminal_requests env state retentionSeconds now requestId with kept | gone
  · rw [stored] at kept
    exact .of_kept kept rfl
  · have pruned : Pruned (.pruneTerminal retentionSeconds now)
        (pruneTerminal env retentionSeconds now state).2.store requestId :=
      ⟨⟨retentionSeconds, now, rfl⟩, gone⟩
    constructor
    · exact fun _ _ => .inl pruned
    · exact fun _ => .inl pruned
    · intro _ other
      cases other

/-- Every operation that spares finished requests keeps them. -/
theorem keepsFinished_execute (intact : Intact state.store) (owned : Owned env state.store)
    (operation : Operation) (spares : operation.SparesFinished state.store) :
    KeepsFinished operation state.store (execute env settings state operation).store requestId
      request := by
  have moves := @execute_moves env settings {} state operation operation.permitted_all
  cases operation with
  | createRequest call =>
    exact .of_absorbs stored (createRequest_absorbs owned call)
      (fun _ other => by cases other)
  | acceptResult result agentLeaseId now cancelNow =>
    exact .of_absorbs stored
      (acceptResult_absorbs intact owned result agentLeaseId now cancelNow)
      (fun _ other => by cases other)
  | cancelRequest target reason now =>
    exact keepsFinished_cancel stored intact owned settings target reason now spares
  | retryTask taskId now => exact keepsFinished_retry stored owned taskId now
  | pruneTerminal retentionSeconds now => exact keepsFinished_prune stored retentionSeconds now
  | recoverRecords clock =>
    obtain ⟨same, advances⟩ := intact.recoverRecords_frame owned clock
    refine .of_absorbs stored (.of_eq .refl same) ?_
    intro published _
    constructor
    · exact (congrArg (fun requests => requests[requestId]?) same).trans stored
    · exact intact.published_tasks stored published advances
  | recover clock =>
    obtain ⟨same, advances⟩ := intact.recoverRecords_frame owned clock
    have recovered := intact.advance advances same
    have ownedRecovered := owned.recoverRecords clock
    have found : (recoverRecords clock state).store.requests[requestId]? = some request := by
      rw [same]
      exact stored
    refine .of_absorbs stored ?_ ?_
    · intro other record otherStored
      rw [← same] at otherStored
      exact expireClaims_absorbs settings ownedRecovered clock.expire other record otherStored
    · intro published _
      constructor
      · obtain ⟨later, foundLater, kept⟩ := expireClaims_keepsPublished settings ownedRecovered
          clock.expire requestId request found
        rw [kept published] at foundLater
        exact foundLater
      · exact intact.published_tasks stored published (advances.trans
          ((@expireClaims_moves env settings {} [.expireClaims, .refreshRequests] _ _ (by simp)
            (by simp)).advances ownedRecovered (by simp)))
  | _ =>
    refine .of_absorbs stored (Moves.follows .refl (fun _ _ _ => .trans)
      (by simp) ?_ moves owned)
      (fun _ other => by cases other)
    intro writer member old new move
    exact move.absorbs (by revert writer; simp)

end Steps

/-- In a run whose calls of `cancel_request` are given no published and no failed
request, every step keeps finished requests. -/
theorem run_keepsFinished (env : Environment) (settings : Settings) (operations : List Operation)
    (spares : ∀ earlier operation later, operations = earlier ++ operation :: later →
      operation.SparesFinished (run env settings earlier).store)
    (earlier later : List Operation) (operation : Operation)
    (step : operations = earlier ++ operation :: later) (requestId : String)
    (request : RequestRecord)
    (stored : (run env settings earlier).store.requests[requestId]? = some request) :
    KeepsFinished operation (run env settings earlier).store
      (run env settings (earlier ++ [operation])).store requestId request := by
  have kept := @keepsFinished_execute env settings _ requestId request stored
    (run_intact env settings earlier) (run_owned earlier) operation
    (spares earlier operation later step)
  have last : run env settings (earlier ++ [operation]) =
      execute env settings (run env settings earlier) operation := List.foldl_append
  rw [last]
  exact kept

/-- A request that succeeds and is published. -/
def publishing (env : Environment) : List Operation :=
  finishing env (smallRequest 1 "g" 1) (smallTask 1) "k" [7] ++
    [.publishSnapshot (env.hash (smallRequest 1 "g" 1).identity)
      (finishedManifest env (smallRequest 1 "g" 1) (smallTask 1) "k" [7]) 1001]

/-- The state and publication of that request after further calls. -/
def publishedThen (env : Environment) (later : List Operation) : Option (TaskState × Bool) :=
  ((run env (.clamped 60 3 1 60) (publishing env ++ later)).store.requests[
    env.hash (smallRequest 1 "g" 1).identity]?).map fun request => (request.state, request.published)

/-- An operator's cancellation overwrites the state of a published request. -/
theorem cancel_overwrites_published :
    publishedThen .transparent [] = some (.succeeded, true) ∧
      publishedThen .transparent [.cancelRequest
        (Environment.transparent.hash (smallRequest 1 "g" 1).identity) "operator_cancelled" 1002] =
          some (.cancelled, true) := by
  decide +kernel

/-- Publication itself is such a step: the run up to it cancels nothing. -/
theorem run_keepsFinished_publishing :
    ∃ request, (run .transparent (.clamped 60 3 1 60)
        (publishing .transparent)).store.requests[
          Environment.transparent.hash (smallRequest 1 "g" 1).identity]? = some request ∧
      request.published = true ∧ request.state = .succeeded ∧
      KeepsFinished (.expireClaims 1002)
        (run .transparent (.clamped 60 3 1 60) (publishing .transparent)).store
        (run .transparent (.clamped 60 3 1 60)
          (publishing .transparent ++ [.expireClaims 1002])).store
        (Environment.transparent.hash (smallRequest 1 "g" 1).identity) request := by
  have shape : publishedThen .transparent [] = some (.succeeded, true) := by decide +kernel
  obtain ⟨request, stored, same⟩ := Option.map_eq_some_iff.mp shape
  obtain ⟨succeeded, published⟩ := Prod.mk.inj same
  rw [List.append_nil] at stored
  refine ⟨request, stored, published, succeeded, ?_⟩
  refine run_keepsFinished .transparent (.clamped 60 3 1 60)
    (publishing .transparent ++ [.expireClaims 1002]) ?_ (publishing .transparent) [] _ rfl _
    request stored
  intro earlier operation later whole
  have member : operation ∈ publishing .transparent ++ [.expireClaims 1002] := by
    rw [whole]
    exact List.mem_append_right _ List.mem_cons_self
  cases operation with
  | cancelRequest requestId reason now => simp [publishing, finishing] at member
  | _ => trivial

end ShortcutProxy.WorkQueue
