import ShortcutProxy.QueueOperations

/-!
# What pruning removes

Staged outputs of all requests for one table directory and one generation lie
under one key range. `prune_staging` removes such a range except for the keys its
caller names, and `prune_terminal` removes, with a failed, cancelled or expired
request, the whole range of each of its tasks. An output that another request
published, or is about to publish, is therefore safe exactly as long as no swept
range contains it.

The objects still in use are read off the store: the splits of stored snapshot
manifests, and the accepted outputs of succeeded tasks whose request is not yet
published. The central law follows the loops of both functions and says that a
run whose sweeps stay clear of these objects never deletes one.
-/

namespace ShortcutProxy.WorkQueue

open Contract Records

/-! ## Objects in use -/

/-- The objects that stored snapshot manifests list as splits. -/
def Store.publishedSplits (store : Store) : List String :=
  (listing store.snapshots).flatMap fun manifest => manifest.splits.map SplitRef.objectKey

/-- The request of a task is stored and not yet published. -/
def Store.awaitsPublication (store : Store) (task : TaskRecord) : Bool :=
  store.requests[task.requestId]?.any fun request => !request.published

/-- The accepted outputs of succeeded tasks whose request is not yet published. -/
def Store.acceptedOutputs (store : Store) : List String :=
  ((listing store.tasks).filter fun task =>
    task.state = .succeeded ∧ store.awaitsPublication task).filterMap fun task =>
      task.result.bind SavedResult.outputKey

/-- The objects that pruning must leave in place. -/
def Store.inUse (store : Store) : List String := store.publishedSplits ++ store.acceptedOutputs

/-! ## Swept ranges -/

variable (env : Environment)

/-- The range a pruned task sweeps, if it has a generation. -/
def sweptRange (task : TaskRecord) : Option String :=
  if task.task.generationId ≠ "" then
    some (stagingGenerationPrefix env task.task.outputKey task.task.generationId)
  else none

/-- The ranges that the requests removed by `prune_terminal` sweep. -/
def Store.discardedRanges (cutoff : Int) (store : Store) : List String :=
  ((listing store.requests).filter fun request =>
    prunable cutoff request ∧ discardsStaging request).flatMap fun request =>
      (request.taskIds.filterMap fun taskId => store.tasks[taskId]?).filterMap (sweptRange env)

/-- The key lies in a key range. -/
def inRange (range key : String) : Bool := range.toList.isPrefixOf key.toList

/-- The key is that of a completion record. -/
def isCompletion (key : String) : Bool := inRange ".fsp/generations/" key

/-- No range of a sweep contains the object, or the caller keeps it. -/
def clearOf (ranges keep : List String) (key : String) : Bool :=
  !isCompletion key && (key ∈ keep || !ranges.any fun range => inRange range key)

/-- The sweep that an operation makes leaves every object in use alone: each of
them is kept by the caller or lies outside the swept table directories and
generations, and none is a completion record. -/
def sparing (store : Store) : Operation → Bool
  | .pruneTerminal retentionSeconds now =>
    store.inUse.all (clearOf
      (store.discardedRanges env (now - max 0 retentionSeconds * 1000)) [])
  | .pruneStaging generationId outputKeys keep =>
    store.inUse.all (clearOf (stagingRanges env generationId outputKeys) keep)
  | _ => true

/-- Every operation of a run that starts in a state is sparing. -/
def sparingFrom (env : Environment) (settings : Settings) (state : QueueState) :
    List Operation → Bool
  | [] => true
  | operation :: later =>
    sparing env state.store operation &&
      sparingFrom env settings (execute env settings state operation) later

/-- An operation is a call of `prune_staging` or `prune_terminal`. -/
def Operation.prunes : Operation → Bool
  | .pruneTerminal .. | .pruneStaging .. => true
  | _ => false

/-! ## The loops of a sweep -/

variable {state : QueueState}

section Loops

variable {env : Environment} {ranges keep : List String} {key : String}

/-- Deleting a staged object touches that object and completion records only. -/
theorem deleteStaged_kept {staged generationId : String} (data : isCompletion key = false)
    (apart : staged ≠ key) :
    (deleteStaged env generationId staged state).store.objects[key]? =
      state.store.objects[key]? := by
  have notCompletion : completionKey env staged generationId ≠ key := by
    rintro rfl
    refine Bool.eq_false_iff.mp data ?_
    unfold isCompletion completionKey
    rw [String.append_assoc, String.append_assoc, String.append_assoc, inRange,
      String.toList_append]
    exact List.isPrefixOf_iff_prefix.mpr (List.prefix_append _ _)
  simp only [deleteStaged, QueueState.perform_store, Store.apply]
  rw [getElem?_assign_of_ne _ _ notCompletion, getElem?_assign_of_ne _ _ apart]

/-- A sweep of a range leaves an object that is clear of it. -/
theorem pruneRange_kept {generationId range : String} (clear : clearOf [range] keep key = true) :
    (pruneRange env generationId keep range state).store.objects[key]? =
      state.store.objects[key]? := by
  obtain ⟨data, outside⟩ : isCompletion key = false ∧
      (key ∈ keep ∨ inRange range key = false) := by
    simpa [clearOf] using clear
  unfold pruneRange
  -- every deleted key is listed in the range and not kept, so it is another key
  refine List.foldlRecOn (motive := fun current : QueueState =>
    current.store.objects[key]? = state.store.objects[key]?) _ _ rfl ?_
  intro current unchanged staged listed
  obtain ⟨under, dropped⟩ := List.mem_filter.mp listed
  have ranged : inRange range staged = true := (List.mem_filter.mp under).2
  refine (deleteStaged_kept data ?_).trans unchanged
  rintro rfl
  rcases outside with kept | clearRange
  · exact absurd kept (by simpa using dropped)
  · rw [clearRange] at ranged
    cases ranged

/-- `prune_staging` leaves an object that is clear of all its ranges. -/
theorem pruneStaging_kept {generationId : String} {outputKeys : List String}
    (clear : clearOf (stagingRanges env generationId outputKeys) keep key = true) :
    (pruneStaging env generationId outputKeys keep state).2.store.objects[key]? =
      state.store.objects[key]? := by
  rw [pruneStaging_state]
  refine List.foldlRecOn (motive := fun current : QueueState =>
    current.store.objects[key]? = state.store.objects[key]?) _ _ rfl ?_
  intro current unchanged range swept
  refine (pruneRange_kept ?_).trans unchanged
  simp only [clearOf, Bool.and_eq_true, Bool.or_eq_true, Bool.not_eq_true', List.any_eq_false,
    List.mem_singleton] at clear ⊢
  refine ⟨clear.1, clear.2.imp id fun outside other same => ?_⟩
  rw [same]
  exact outside range swept

end Loops

/-! ## Removing requests

`prune_terminal` rereads every record as it goes. The records it finds were all
stored when it began, since the loop only removes requests and tasks. -/

/-- Every request and task of the later store is one of the earlier store. -/
structure Remains (later earlier : Store) : Prop where
  requests : ∀ (requestId : String) (request : RequestRecord),
    later.requests[requestId]? = some request → earlier.requests[requestId]? = some request
  tasks : ∀ (taskId : String) (task : TaskRecord),
    later.tasks[taskId]? = some task → earlier.tasks[taskId]? = some task

section Removal

variable {env : Environment} {key : String} {start state : QueueState} {cutoff : Int}

/-- The loop of `prune_terminal` has removed records only, and the object is in
its place. -/
structure Sweeping (key : String) (start state : QueueState) : Prop where
  remains : Remains state.store start.store
  kept : state.store.objects[key]? = start.store.objects[key]?

theorem getElem?_of_removed {υ : Type} {table : Table String υ} {removed other : String}
    {record : υ} (stored : (assign table removed none)[other]? = some record) :
    table[other]? = some record := by
  rw [getElem?_assign] at stored
  split at stored
  · cases stored
  · exact stored

/-- One pass of the inner loop sweeps at most the range of the task it removes. -/
theorem Sweeping.pruneTask {request : RequestRecord} {requestId taskId : String}
    (sweeping : Sweeping key start state)
    (clear : clearOf (start.store.discardedRanges env cutoff) [] key = true)
    (stored : start.store.requests[requestId]? = some request)
    (removed : prunable cutoff request = true) (listed : taskId ∈ request.taskIds) :
    Sweeping key start (pruneTask env request taskId state) where
  remains := by
    obtain ⟨swept, same, shape⟩ := pruneTask_view Store.requests (fun _ _ _ => rfl)
      (fun _ _ _ => rfl) env request taskId state
    refine ⟨fun other record present => ?_, fun other record present => ?_⟩
    · rw [shape, QueueState.perform_store, Store.apply, same] at present
      exact sweeping.remains.requests other record present
    · rw [pruneTask_tasks] at present
      exact sweeping.remains.tasks other record (getElem?_of_removed present)
  kept := by
    simp only [WorkQueue.pruneTask, QueueState.perform_store, Store.apply]
    rw [deleteResults_view Store.objects (fun _ _ _ => rfl)]
    split
    · exact sweeping.kept
    · next task found =>
      split
      · next discarded =>
        refine (pruneStaging_kept ?_).trans sweeping.kept
        have swept : stagingGenerationPrefix env task.task.outputKey task.task.generationId ∈
            start.store.discardedRanges env cutoff := by
          have kept := sweeping.remains.tasks taskId task found
          refine List.mem_flatMap.mpr ⟨request, List.mem_filter.mpr
            ⟨(mem_listing _ _).mpr ⟨requestId, stored⟩, by simp [removed, discarded.1]⟩, ?_⟩
          exact List.mem_filterMap.mpr
            ⟨task, List.mem_filterMap.mpr ⟨taskId, listed, kept⟩, if_pos discarded.2⟩
        simp only [clearOf, Bool.and_eq_true, Bool.or_eq_true, Bool.not_eq_true',
          List.any_eq_false, List.not_mem_nil, decide_false, false_or,
          Bool.false_eq_true] at clear ⊢
        refine ⟨clear.1, fun range single => ?_⟩
        obtain rfl : range = stagingGenerationPrefix env task.task.outputKey
            task.task.generationId := by
          simpa [stagingRanges] using single
        exact clear.2 _ swept
      · exact sweeping.kept

/-- One pass of the outer loop removes a request with its tasks, or nothing. -/
theorem Sweeping.pruneRequest (sweeping : Sweeping key start state)
    (clear : clearOf (start.store.discardedRanges env cutoff) [] key = true)
    (requestId : String) : Sweeping key start (pruneRequest env cutoff requestId state) := by
  unfold WorkQueue.pruneRequest
  split
  · exact sweeping
  · next request found =>
    split
    · next removed =>
      have stored := sweeping.remains.requests requestId request found
      have emptied : Sweeping key start (request.taskIds.foldl
          (fun current taskId => WorkQueue.pruneTask env request taskId current) state) := by
        refine List.foldlRecOn (motive := Sweeping key start) _ _ sweeping ?_
        intro current earlier taskId listed
        exact earlier.pruneTask clear stored removed listed
      exact ⟨⟨fun other record present => emptied.remains.requests other record
        (getElem?_of_removed present), emptied.remains.tasks⟩, emptied.kept⟩
    · exact sweeping

/-- `prune_terminal` leaves an object that lies in none of the discarded ranges. -/
theorem pruneTerminal_kept {retentionSeconds now : Int}
    (clear : clearOf (state.store.discardedRanges env (now - max 0 retentionSeconds * 1000)) []
      key = true) :
    (pruneTerminal env retentionSeconds now state).2.store.objects[key]? =
      state.store.objects[key]? := by
  have unswept : Sweeping key state state := ⟨⟨fun _ _ => id, fun _ _ => id⟩, rfl⟩
  refine Sweeping.kept (List.foldlRecOn (motive := Sweeping key state) _ _ unswept ?_)
  intro current sweeping requestId _
  exact sweeping.pruneRequest clear requestId

end Removal

/-! ## Whole runs -/

/-- Every operation of a sparing run is sparing in the state that it finds. -/
theorem sparing_of_sparingFrom {env : Environment} {settings : Settings}
    {earlier later : List Operation} {operation : Operation}
    (spares : sparingFrom env settings state (earlier ++ operation :: later) = true) :
    sparing env (earlier.foldl (execute env settings) state).store operation = true := by
  induction earlier generalizing state with
  | nil => exact (Bool.and_eq_true_iff.mp spares).1
  | cons first rest ih =>
    exact ih (Bool.and_eq_true_iff.mp spares).2

/-- In every run whose sweeps stay clear of the objects in use, no call of
`prune_staging` or `prune_terminal` deletes or changes a split of a stored snapshot
manifest or the accepted output of a succeeded task of an unpublished request. -/
theorem run_keepsInUse (env : Environment) (settings : Settings) (operations : List Operation)
    (spares : sparingFrom env settings {} operations = true) (earlier later : List Operation)
    (operation : Operation) (position : operations = earlier ++ operation :: later)
    (prunes : operation.prunes = true) (key : String)
    (used : key ∈ (run env settings earlier).store.inUse) :
    (run env settings (earlier ++ [operation])).store.objects[key]? =
      (run env settings earlier).store.objects[key]? := by
  subst position
  have step : run env settings (earlier ++ [operation]) =
      execute env settings (run env settings earlier) operation := by
    simp [run]
  rw [step]
  have clear := sparing_of_sparingFrom spares
  cases operation with
  | pruneTerminal retentionSeconds now =>
    exact pruneTerminal_kept (List.all_eq_true.mp clear key used)
  | pruneStaging generationId outputKeys keep =>
    exact pruneStaging_kept (List.all_eq_true.mp clear key used)
  | _ => cases prunes

/-! ## Two requests for one table

A request of epoch 1 is published and another one, of epoch 2, is not. -/

/-- The published request, finished and published under generation `g`. -/
def publishedFirst : List Operation :=
  finishing env (smallRequest 1 "g" 1) (smallTask 1) "a" [7] ++
    [.publishSnapshot (env.hash (smallRequest 1 "g" 1).identity)
      (finishedManifest env (smallRequest 1 "g" 1) (smallTask 1) "a" [7]) 1001]

/-- The output that the published request lists. -/
def publishedOutput : String :=
  firstOutputKey env (smallRequest 1 "g" 1) (smallTask 1) "a"

/-- Another request is then created under a generation and cancelled. -/
def cancelledSecond (generationId : String) : List Operation :=
  publishedFirst env ++ [.createRequest (smallRequest 2 generationId 1),
    .cancelRequest (env.hash (smallRequest 2 generationId 1).identity) "c" 1002]

/-- Another request is finished under the same generation but not yet published. -/
def finishedSecond : List Operation :=
  publishedFirst env ++ finishing env (smallRequest 2 "g" 1) (smallTask 2) "b" [8]

/-- The accepted output of the request that is not yet published. -/
def acceptedOutput : String :=
  firstOutputKey env (smallRequest 2 "g" 1) (smallTask 2) "b"

theorem run_keepsInUse_generations :
    publishedOutput .transparent ∈
        (run .transparent (.clamped 60 3 1 60) (cancelledSecond .transparent "h")).store.inUse ∧
      (run .transparent (.clamped 60 3 1 60) (cancelledSecond .transparent "h" ++
          [.pruneTerminal 0 1003])).store.objects[publishedOutput .transparent]? =
        (run .transparent (.clamped 60 3 1 60) (cancelledSecond .transparent "h")).store.objects[
          publishedOutput .transparent]? := by
  have used : publishedOutput .transparent ∈
      (run .transparent (.clamped 60 3 1 60) (cancelledSecond .transparent "h")).store.inUse := by
    decide +kernel
  exact ⟨used, run_keepsInUse .transparent (.clamped 60 3 1 60)
    (cancelledSecond .transparent "h" ++ [.pruneTerminal 0 1003]) (by decide +kernel)
    (cancelledSecond .transparent "h") [] (.pruneTerminal 0 1003) rfl rfl _ used⟩

/-- Both functions delete objects in use. Removing a cancelled request of the same
table directory and generation deletes the split of a stored snapshot manifest, and
the clean-up after a publication deletes the accepted output of a request that is
still to be published. -/
theorem prune_deletes_inUse :
    (publishedOutput .transparent ∈ (run .transparent (.clamped 60 3 1 60)
        (cancelledSecond .transparent "g")).store.publishedSplits ∧
      publishedOutput .transparent ∈ (run .transparent (.clamped 60 3 1 60)
        (cancelledSecond .transparent "g")).store.objects ∧
      publishedOutput .transparent ∈ (run .transparent (.clamped 60 3 1 60)
        (cancelledSecond .transparent "g" ++ [.pruneTerminal 0 1003])).store.publishedSplits ∧
      publishedOutput .transparent ∉ (run .transparent (.clamped 60 3 1 60)
        (cancelledSecond .transparent "g" ++ [.pruneTerminal 0 1003])).store.objects) ∧
    acceptedOutput .transparent ∈ (run .transparent (.clamped 60 3 1 60)
        (finishedSecond .transparent)).store.acceptedOutputs ∧
      acceptedOutput .transparent ∈ (run .transparent (.clamped 60 3 1 60)
        (finishedSecond .transparent)).store.objects ∧
      acceptedOutput .transparent ∉ (run .transparent (.clamped 60 3 1 60)
        (finishedSecond .transparent ++ [.pruneStaging "g" ["t/0"]
          [publishedOutput .transparent]])).store.objects := by
  decide +kernel

end ShortcutProxy.WorkQueue
