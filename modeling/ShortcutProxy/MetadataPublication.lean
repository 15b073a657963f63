import ShortcutProxy.MaterializeService
import ShortcutProxy.TaskTransitions

/-!
# When table metadata follows publications

`materialize_for_key` writes the metadata objects of a table before it publishes
the snapshot, to keys that every publication of the table shares and from a
snapshot in memory that concurrent calls share. A publication that is then
rejected has already replaced the metadata, and two calls that copy their results
into one snapshot at the same time leave files of two requests in it.

A run is orderly if the publication sections of the table do not overlap, none is
given up once it has started to write, and each publication is submitted to a
live Manager in a state that admits it. In an orderly run the metadata changes
only by calls that commit, and no metadata object ever lists files of two
requests. The second half rests on the queue: the tasks of a request are exactly
the splits of the table, and a task identifier determines its request.
-/
namespace ShortcutProxy.MaterializeService

open Contract Generation Records TableMetadata WorkQueue List

/-! ## The property -/

/-- A result with this output key was once stored for a task of this request. -/
def AcceptedFor (queue : QueueState) (requestId objectKey : String) : Prop :=
  ∃ entry ∈ taskJournal queue.journal, ∃ task result, entry.value = some task ∧
    task.requestId = requestId ∧ task.result = some result ∧ result.outputKey = some objectKey

/-- All data files that an object lists are results of one request. -/
def OneRequest (queue : QueueState) (object : MetadataObject) : Prop :=
  ∃ requestId, ∀ file ∈ object.files, AcceptedFor queue requestId file.objectKey

/-- A call is between its first copied result and its publication. -/
def Phase.inSection : Phase → Bool
  | .read _ _ | .assign _ _ _ _ _ | .build _ _ | .put _ _ _ _ | .publish _ => true
  | _ => false

/-- A call writes metadata or has written it and not yet published. -/
def Phase.isWriting : Phase → Bool
  | .build _ _ | .put _ _ _ _ | .publish _ => true
  | _ => false

section Orderly

variable {ι : Type} [DecidableEq ι] (env : Environment) (settings : Settings) (config : Config)

/-- What an orderly run asks of one event in the state before it. -/
def orderly (service : Service ι) : Action ι → Bool
  | .advance index now live =>
    match service.calls[index]? with
    | some (_, .existing _ _) => !service.calls.any fun other => other.2.inSection
    | some (call, .publish gathered) =>
      live && (preparePublication env gathered.terminal.requestId
        (manifestOf config (service.memory call.manager) gathered now) now
        service.queue.store).toOption.isSome
    | _ => true
  | .abandon index => !service.calls[index]?.any fun other => other.2.isWriting
  | .call _ _ | .queue _ => true

end Orderly

/-! ## What the queue guarantees -/

variable {requestId taskId : String} {object : MetadataObject} {result : SavedResult}
  {done : List String} {snap : SnapshotState} {later : QueueState} {gathered : Gathered}

section Queue

variable {env : Environment} {settings : Settings} {permits : Permits}

variable {first second : QueueState}

/-- Task writes are never forgotten. -/
theorem TaskSteps.journal_subset (steps : TaskSteps env first second) :
    taskJournal first.journal ⊆ taskJournal second.journal := by
  induction steps with
  | refl => exact .refl _
  | tail earlier step ih =>
    refine List.Subset.trans ih ?_
    cases step with
    | task writer taskId record move => exact subset_cons_self _ _
    | other writer write apart =>
      rw [QueueState.perform_journal, taskJournal_cons_of_ne _ _ _ apart]
      exact .refl _

/-- An accepted result stays accepted. -/
theorem AcceptedFor.mono {objectKey : String} (accepted : AcceptedFor first requestId objectKey)
    (grown : taskJournal first.journal ⊆ taskJournal second.journal) :
    AcceptedFor second requestId objectKey := by
  obtain ⟨entry, member, found⟩ := accepted
  exact ⟨entry, grown member, found⟩

theorem OneRequest.mono (single : OneRequest first object)
    (grown : taskJournal first.journal ⊆ taskJournal second.journal) :
    OneRequest second object := by
  obtain ⟨requestId, accepted⟩ := single
  exact ⟨requestId, fun file listed => (accepted file listed).mono grown⟩

/-- The identifier of the task for one split of a table. -/
def splitTaskId (env : Environment) (requestId : String) (split : Int × String) : String :=
  env.hash (requestId ++ "|" ++ toString split.1 ++ "|" ++ split.2)

/-- A creation that covers these splits, each by one task. -/
def CoversSplits (splits : List (Int × String)) (call : CreateCall) : Prop :=
  call.tasks.map (fun task => (task.splitIndex, task.outputKey)) = splits

/-- A request whose tasks are those of the splits. -/
structure Covering (env : Environment) (splits : List (Int × String)) (request : RequestRecord) :
    Prop where
  hashed : '|' ∉ request.requestId.toList
  taskIds : request.taskIds = splits.map (splitTaskId env request.requestId)

/-- Requests cover the splits of their tables as long as every creation does. -/
theorem Update.covering {splits : String → List (Int × String)} {state next : QueueState}
    (update : Update env settings permits state next)
    (creates : ∀ call, permits.creates call → CoversSplits (splits call.table) call)
    (covering : ∀ (requestId : String) (request : RequestRecord),
      state.store.requests[requestId]? = some request →
        Covering env (splits request.table) request) :
    ∀ (requestId : String) (request : RequestRecord),
      next.store.requests[requestId]? = some request →
        Covering env (splits request.table) request := by
  intro requestId request stored
  rcases update.request_cases stored with
    earlier | ⟨writer, old, found, move⟩ | ⟨call, permitted, rfl⟩
  · exact covering requestId request earlier
  · have kept := move.identity_eq
    simp only [RequestRecord.identity, Prod.mk.injEq] at kept
    obtain ⟨hashed, taskIds⟩ := covering requestId old found
    rw [move.table_eq]
    exact ⟨by rw [kept.1]; exact hashed, by rw [kept.2.2, kept.1]; exact taskIds⟩
  · refine ⟨env.digest.bar_free _, ?_⟩
    show (createdRequest env call).taskIds = (splits call.table).map _
    rw [← creates call permitted, map_map]
    rfl

variable {request : RequestRecord} {record : TaskRecord}

/-- The stored record of a task of a covering request belongs to that request. -/
theorem Covering.task_of {splits : List (Int × String)} {store : Store}
    (covering : Covering env splits request) (owned : Owned env store)
    (listed : taskId ∈ request.taskIds) (stored : store.tasks[taskId]? = some record) :
    record.requestId = request.requestId ∧ taskId = taskIdOf env request.requestId record.task := by
  have named := owned.taskName taskId record stored
  obtain ⟨owner, owning, _⟩ := owned.taskListed taskId record stored
  obtain ⟨text, hashed⟩ := owned.requestName _ _ owning
  rw [covering.taskIds] at listed
  obtain ⟨split, _, identifier⟩ := mem_map.mp listed
  have same : taskIdOf env request.requestId
      { record.task with splitIndex := split.1, outputKey := split.2 } =
        taskIdOf env record.requestId record.task := by
    rw [← named, ← identifier]
    rfl
  have free : '|' ∉ record.requestId.toList := by
    rw [hashed]
    exact env.digest.bar_free text
  obtain ⟨sameRequest, _⟩ := taskIdOf_inj covering.hashed free same
  exact ⟨sameRequest.symm, by rw [sameRequest]; exact named⟩

/-- Metadata objects are kept or written as permitted. -/
theorem Update.described {state next : QueueState} (update : Update env settings permits state next)
    {key : String} (stored : next.store.metadata[key]? = some object) :
    state.store.metadata[key]? = some object ∨ permits.describes key object := by
  cases update with
  | task | remember | request => exact .inl stored
  | metadata writer other written permitted =>
    simp only [QueueState.perform_store, Store.apply, getElem?_assign] at stored
    split at stored
    · next same =>
      subst same
      cases stored
      exact .inr permitted
    · exact .inl stored
  | create call permitted absent =>
    refine .inl ?_
    simp only [writeRequest, QueueState.perform_store, Store.apply] at stored
    rw [view_after_puts Store.metadata (fun _ _ _ => rfl)] at stored
    exact stored
  | forget writer requestId first second childless both =>
    rcases both with ⟨rfl, rfl⟩ | ⟨rfl, rfl⟩ <;> exact .inl stored
  | neutral writer write neutral =>
    cases write with
    | metadata _ _ => cases neutral
    | _ => exact .inl stored

theorem Updates.described (updates : Updates env settings permits first second) {key : String}
    (stored : second.store.metadata[key]? = some object) :
    first.store.metadata[key]? = some object ∨ permits.describes key object := by
  induction updates with
  | refl => exact .inl stored
  | tail _ update ih =>
    rcases Update.described update stored with earlier | described
    · exact ih earlier
    · exact .inr described

/-- A queue in which every request covers the splits. -/
def Reached (env : Environment) (settings : Settings) (splits : List (Int × String))
    (queue : QueueState) : Prop :=
  Updates env settings { creates := CoversSplits splits } {} queue

variable {splits : List (Int × String)} {queue : QueueState}

section

variable (reached : Reached env settings splits queue)
include reached

theorem Reached.owned : Owned env queue.store :=
  Updates.owned reached owned_empty

theorem Reached.journaled : queue.Journaled := by
  have steps : TaskSteps env {} queue := Updates.taskSteps reached owned_empty
  exact (steps.lawfulTasks ⟨fun taskId => by simp, trivial⟩).journaled

theorem Reached.covering {requestId : String}
    (stored : queue.store.requests[requestId]? = some request) :
    Covering env splits request := by
  induction reached generalizing requestId request with
  | refl => simp at stored
  | tail _ update ih =>
    exact @Update.covering _ _ _ (fun _ => splits) _ _ update (fun _ permitted => permitted)
      (fun _ _ earlier => ih earlier) requestId request stored

/-- An operation that creates covering requests and writes metadata of one request
keeps the queue reached, forgets no task write and mixes no requests. -/
theorem Reached.operate (operation : Operation)
    (permitted : operation.Permitted ⟨CoversSplits splits, fun _ => OneRequest queue⟩)
    (stored : ∀ (key : String) (object : MetadataObject),
      queue.store.metadata[key]? = some object → OneRequest queue object) :
    Reached env settings splits (execute env settings queue operation) ∧
      taskJournal queue.journal ⊆ taskJournal (execute env settings queue operation).journal ∧
      ∀ (key : String) (object : MetadataObject),
        (execute env settings queue operation).store.metadata[key]? = some object →
          OneRequest (execute env settings queue operation) object := by
  have covers : operation.Permitted { creates := CoversSplits splits } := by
    cases operation with
    | createRequest call => exact permitted
    | _ => trivial
  have updates : Updates env settings { creates := CoversSplits splits } queue
      (execute env settings queue operation) := (execute_moves queue operation covers).leads reached.owned
  have written : Updates env settings ⟨CoversSplits splits, fun _ => OneRequest queue⟩ queue
      (execute env settings queue operation) := (execute_moves queue operation permitted).leads reached.owned
  have grown := TaskSteps.journal_subset (Updates.taskSteps updates reached.owned)
  refine ⟨.trans reached updates, grown, fun key object found => ?_⟩
  rcases Updates.described written found with earlier | described
  · exact (stored key object earlier).mono grown
  · exact described.mono grown

/-- What a stored result says was accepted for the request of its task. -/
theorem Reached.accepted {objectKey : String}
    (stored : queue.store.tasks[taskId]? = some record) (reported : record.result = some result)
    (output : result.outputKey = some objectKey) :
    AcceptedFor queue record.requestId objectKey := by
  rw [reached.journaled taskId] at stored
  obtain ⟨entry, member, _, written⟩ := Journal.mem_of_latest stored
  exact ⟨entry, member, record, result, written, rfl, reported, output⟩

end

end Queue

/-! ## Snapshots in memory -/

section Memory

variable {env : Environment} {queue : QueueState}

/-- The splits of a snapshot as tasks are created from them. -/
def splitsOf (snap : SnapshotState) : List (Int × String) :=
  snap.splits.map fun split => (split.splitIndex, canonicalKey split)

/-- What decides which task a split has and which file it stands for. -/
def profile (split : SplitDescriptor) : Int × String × String :=
  (split.splitIndex, canonicalKey split, split.objectKey)

/-- The splits of these tasks stand for files of the request. -/
def Filled (env : Environment) (queue : QueueState) (requestId : String) (done : List String)
    (snap : SnapshotState) : Prop :=
  ∀ split ∈ snap.splits, splitTaskId env requestId (split.splitIndex, canonicalKey split) ∈ done →
    AcceptedFor queue requestId split.objectKey

theorem Filled.mono (filled : Filled env queue requestId done snap)
    (grown : taskJournal queue.journal ⊆ taskJournal later.journal) :
    Filled env later requestId done snap :=
  fun split member finished => (filled split member finished).mono grown

/-- Only the profiles of the splits matter. -/
theorem Filled.congr {old new : SnapshotState} (filled : Filled env queue requestId done old)
    (same : new.splits.map profile = old.splits.map profile) :
    Filled env queue requestId done new := by
  intro split member finished
  have inside : profile split ∈ old.splits.map profile := by
    rw [← same]
    exact mem_map_of_mem member
  obtain ⟨other, otherMember, equal⟩ := mem_map.mp inside
  simp only [profile, Prod.mk.injEq] at equal
  rw [← equal.2.2]
  refine filled other otherMember ?_
  rw [equal.1, equal.2.1]
  exact finished

theorem splitsOf_congr {old new : SnapshotState}
    (same : new.splits.map profile = old.splits.map profile) : splitsOf new = splitsOf old := by
  have projected := congrArg (List.map fun entry : Int × String × String =>
    (entry.1, entry.2.1)) same
  simp only [map_map] at projected
  exact projected

theorem rememberKeys_profile (snap : SnapshotState) :
    (rememberKeys snap).splits.map profile = snap.splits.map profile := by
  simp only [rememberKeys, map_map]
  rfl

/-- The element that `updateFirst` changes passes the test. -/
theorem updateFirst_some {α : Type} {test : α → Bool} {change : α → α} {items updated : List α}
    (changed : updateFirst test change items = some updated) :
    ∃ before item after, items = before ++ item :: after ∧ test item = true ∧
      updated = before ++ change item :: after := by
  induction items generalizing updated with
  | nil => cases changed
  | cons first rest ih =>
    rw [updateFirst] at changed
    split at changed
    · next passed =>
      cases changed
      exact ⟨[], first, rest, rfl, passed, rfl⟩
    · obtain ⟨later, found, rfl⟩ := Option.map_eq_some_iff.mp changed
      obtain ⟨before, item, after, rfl, passed, rfl⟩ := ih found
      exact ⟨first :: before, item, after, rfl, passed, rfl⟩

/-- A list without repeated images has one element for each image. -/
theorem eq_of_nodup_map {α β : Type} {image : α → β} {before after : List α} {item other : α}
    (distinct : ((before ++ item :: after).map image).Nodup)
    (member : other ∈ before ++ after) : image other ≠ image item := by
  intro same
  rw [map_append, map_cons] at distinct
  have moved := (nodup_middle.mp distinct)
  rw [nodup_cons, ← map_append] at moved
  exact moved.1 (by rw [← same]; exact mem_map_of_mem member)

variable {assigned : SnapshotState}

variable {extended : Gathered} {task : MaterializeTask}

section

variable
  (copied : assignResult env gathered taskId task result snap = some (extended, assigned))
include copied

/-- What copying a result does to the snapshot: one split, the one of the task,
gets another file. -/
theorem assignResult_some :
    extended.terminal = gathered.terminal ∧ ∃ before split after objectKey,
      result.outputKey = some objectKey ∧ snap.splits = before ++ split :: after ∧
      matchesTask task split = true ∧
      assigned = { snap with splits := before ++ filled result objectKey split :: after } := by
  simp only [assignResult] at copied
  split at copied
  · cases copied
  · next splits changed =>
    obtain ⟨before, split, after, shape, matching, rfl⟩ := updateFirst_some changed
    split at copied
    · next staged =>
      cases copied
      cases reported : result.outputKey with
      | some objectKey =>
        exact ⟨rfl, before, split, after, objectKey, rfl, shape, matching, by simp⟩
      | none =>
        -- An empty key lies in no staging directory, as the directory has a name.
        rw [reported, Option.getD_none] at staged
        simp [stagingTaskPrefix] at staged
    · cases copied

/-- Copying the result of a task fills its split and no other. -/
theorem Filled.assign (filled : Filled env queue requestId done snap)
    (distinct : (snap.splits.map SplitDescriptor.splitIndex).Nodup) (free : '|' ∉ requestId.toList)
    (named : taskId = taskIdOf env requestId task)
    (accepted : ∀ objectKey, result.outputKey = some objectKey →
      AcceptedFor queue requestId objectKey) :
    Filled env queue requestId (done ++ [taskId]) assigned := by
  obtain ⟨_, before, split, after, objectKey, output, shape, matching, rfl⟩ :=
    assignResult_some copied
  intro other member finished
  have kept : other ∈ before ++ after → AcceptedFor queue requestId other.objectKey := by
    intro apart
    have original : other ∈ snap.splits := by
      rw [shape]
      exact perm_middle.mem_iff.mpr (mem_cons_of_mem _ apart)
    rcases mem_append.mp finished with earlier | now
    · exact filled other original earlier
    · -- Another split with this task would have the index of the split just filled.
      rw [mem_singleton, named] at now
      have same : taskIdOf env requestId
          { task with splitIndex := other.splitIndex, outputKey := canonicalKey other } =
            taskIdOf env requestId task := now
      obtain ⟨_, sameIndex, _⟩ := taskIdOf_inj free free same
      rw [shape] at distinct
      simp only [matchesTask, Bool.decide_and, Bool.and_eq_true, decide_eq_true_eq] at matching
      exact absurd (sameIndex.trans matching.1.symm) (eq_of_nodup_map distinct apart)
  rcases mem_cons.mp (perm_middle.mem_iff.mp member) with rfl | apart
  · exact accepted objectKey output
  · exact kept apart

/-- Copying a result keeps the tasks of the splits. -/
theorem assignResult_splitsOf : splitsOf assigned = splitsOf snap := by
  obtain ⟨_, before, split, after, objectKey, _, shape, matching, rfl⟩ := assignResult_some copied
  simp only [matchesTask, Bool.decide_and, Bool.and_eq_true, decide_eq_true_eq] at matching
  have sameKey : canonicalKey (filled result objectKey split) = canonicalKey split := by
    simp only [canonicalKey, filled, matching.2, Option.getD_some]
  simp only [splitsOf, shape, map_append, map_cons, sameKey]
  rfl

end

/-! ## Building metadata -/

/-- Nothing that the builders remember of the snapshot mixes two requests. -/
structure Unmixed (queue : QueueState) (snap : SnapshotState) : Prop where
  metadata : ∀ object, snap.metadataBytes = some object → OneRequest queue object
  manifestList : ∀ object, snap.manifestListBytes = some object → OneRequest queue object
  manifestFile : ∀ object, snap.manifestFileBytes = some object → OneRequest queue object
  deltaCommit : ∀ object, snap.deltaCommit = some object → OneRequest queue object

theorem Unmixed.mono (unmixed : Unmixed queue snap)
    (grown : taskJournal queue.journal ⊆ taskJournal later.journal) : Unmixed later snap where
  metadata object built := (unmixed.metadata object built).mono grown
  manifestList object built := (unmixed.manifestList object built).mono grown
  manifestFile object built := (unmixed.manifestFile object built).mono grown
  deltaCommit object built := (unmixed.deltaCommit object built).mono grown

theorem oneRequest_of_nil (listed : object.files = []) : OneRequest queue object :=
  ⟨"", fun file member => by rw [listed] at member; cases member⟩

/-- An object that lists the files of the splits is of their request. -/
theorem oneRequest_of_splits {entry : SplitDescriptor → DataFile}
    (listed : object.files = snap.splits.map entry)
    (sameKey : ∀ split, (entry split).objectKey = split.objectKey)
    (accepted : ∀ split ∈ snap.splits, AcceptedFor queue requestId split.objectKey) :
    OneRequest queue object := by
  refine ⟨requestId, fun file member => ?_⟩
  rw [listed] at member
  obtain ⟨split, inside, rfl⟩ := mem_map.mp member
  rw [sameKey]
  exact accepted split inside

/-- What a builder does: it gives an object of one request, remembers nothing
else, and leaves the splits alone. -/
structure SoundBuild (queue : QueueState) (snap : SnapshotState)
    (built : MetadataObject × SnapshotState) : Prop where
  object : OneRequest queue built.1
  unmixed : Unmixed queue built.2
  splits : built.2.splits = snap.splits

section Builders

variable {snap : SnapshotState} {requestId : String} (unmixed : Unmixed queue snap)
  (accepted : ∀ split ∈ snap.splits, AcceptedFor queue requestId split.objectKey)

include unmixed

theorem buildMetadataJson_sound : SoundBuild queue snap (buildMetadataJson snap) := by
  unfold buildMetadataJson
  split
  · next built remembered => exact ⟨unmixed.metadata built remembered, unmixed, rfl⟩
  · refine ⟨oneRequest_of_nil rfl, { unmixed with metadata := ?_ }, rfl⟩
    rintro object ⟨⟩
    exact oneRequest_of_nil rfl

include accepted

theorem buildManifestFile_sound : SoundBuild queue snap (buildManifestFile snap) := by
  unfold buildManifestFile
  split
  · next built remembered => exact ⟨unmixed.manifestFile built remembered, unmixed, rfl⟩
  · have fresh : OneRequest queue (.manifestFile (snap.splits.map manifestEntry)) :=
      oneRequest_of_splits rfl (fun _ => rfl) accepted
    refine ⟨fresh, { unmixed with manifestFile := ?_ }, rfl⟩
    rintro object ⟨⟩
    exact fresh

theorem buildManifestList_sound (encodedLength : MetadataObject → Int) :
    SoundBuild queue snap (buildManifestList encodedLength snap) := by
  unfold buildManifestList
  split
  · next built remembered => exact ⟨unmixed.manifestList built remembered, unmixed, rfl⟩
  · have manifest := buildManifestFile_sound unmixed accepted
    refine ⟨oneRequest_of_nil rfl, { manifest.unmixed with manifestList := ?_ }, manifest.splits⟩
    rintro object ⟨⟩
    exact oneRequest_of_nil rfl

theorem buildDeltaCommit_sound : SoundBuild queue snap (buildDeltaCommit snap) := by
  unfold buildDeltaCommit
  split
  · next built remembered => exact ⟨unmixed.deltaCommit built remembered, unmixed, rfl⟩
  · have fresh : OneRequest queue (.deltaCommit (snap.splits.map addAction)) :=
      oneRequest_of_splits rfl (fun _ => rfl) accepted
    refine ⟨fresh, { unmixed with deltaCommit := ?_ }, rfl⟩
    rintro object ⟨⟩
    exact fresh

theorem buildObject_sound (encodedLength : MetadataObject → Int) (kind : ObjectKind) :
    SoundBuild queue snap (buildObject encodedLength snap kind).2 := by
  cases kind with
  | metadata => exact buildMetadataJson_sound unmixed
  | manifestList => exact buildManifestList_sound unmixed accepted encodedLength
  | manifestFile => exact buildManifestFile_sound unmixed accepted
  | versionHint => exact ⟨oneRequest_of_nil rfl, unmixed, rfl⟩
  | deltaCommit => exact buildDeltaCommit_sound unmixed accepted

end Builders

end Memory

/-! ## Calls in progress -/

section Calls

variable {ι : Type} {env : Environment} {settings : Settings} {config : Config}
variable {splits : List (Int × String)} {queue : QueueState} {snap : SnapshotState}

/-- A call that copies results: its request has the tasks of the splits, and the
splits of the finished tasks stand for files of the request. -/
structure Gathering (env : Environment) (splits : List (Int × String)) (queue : QueueState)
    (snap : SnapshotState) (gathered : Gathered) (done : List String) : Prop where
  covering : Covering env splits gathered.terminal
  filled : Filled env queue gathered.terminal.requestId done snap

/-- What holds of a call at each of its phases. -/
def PhaseSound (env : Environment) (splits : List (Int × String)) (queue : QueueState)
    (snap : SnapshotState) : Phase → Prop
  | .lock _ terminal | .existing _ terminal => Covering env splits terminal
  | .read gathered taskIds => ∃ done, gathered.terminal.taskIds = done ++ taskIds ∧
      Gathering env splits queue snap gathered done
  | .assign gathered taskId task result taskIds =>
    ∃ done, gathered.terminal.taskIds = done ++ taskId :: taskIds ∧
      Gathering env splits queue snap gathered done ∧
      taskId = taskIdOf env gathered.terminal.requestId task ∧
      ∀ objectKey, result.outputKey = some objectKey →
        AcceptedFor queue gathered.terminal.requestId objectKey
  | .build gathered _ | .publish gathered =>
    Gathering env splits queue snap gathered gathered.terminal.taskIds
  | .put gathered _ object _ =>
    Gathering env splits queue snap gathered gathered.terminal.taskIds ∧ OneRequest queue object
  | _ => True

theorem Gathering.mono {next : SnapshotState}
    (gathering : Gathering env splits queue snap gathered done)
    (grown : taskJournal queue.journal ⊆ taskJournal later.journal)
    (same : next.splits.map profile = snap.splits.map profile) :
    Gathering env splits later next gathered done :=
  ⟨gathering.covering, (gathering.filled.mono grown).congr same⟩

/-- A phase stays sound while others work, if no file of its section changes. -/
theorem PhaseSound.mono {phase : Phase} {next : SnapshotState}
    (sound : PhaseSound env splits queue snap phase)
    (grown : taskJournal queue.journal ⊆ taskJournal later.journal)
    (same : phase.inSection = true → next.splits.map profile = snap.splits.map profile) :
    PhaseSound env splits later next phase := by
  cases phase with
  | read gathered taskIds =>
    obtain ⟨done, shape, gathering⟩ := sound
    exact ⟨done, shape, gathering.mono grown (same rfl)⟩
  | assign gathered taskId task result taskIds =>
    obtain ⟨done, shape, gathering, named, accepted⟩ := sound
    exact ⟨done, shape, gathering.mono grown (same rfl), named,
      fun objectKey output => (accepted objectKey output).mono grown⟩
  | build | publish => exact Gathering.mono sound grown (same rfl)
  | put gathered key object kinds => exact ⟨sound.1.mono grown (same rfl), sound.2.mono grown⟩
  | lock | existing => exact sound
  | _ => trivial

/-- Once every task is copied, every split stands for a file of the request. -/
theorem Gathering.accepted
    (gathering : Gathering env splits queue snap gathered gathered.terminal.taskIds)
    (aligned : splitsOf snap = splits) :
    ∀ split ∈ snap.splits, AcceptedFor queue gathered.terminal.requestId split.objectKey := by
  intro split member
  refine gathering.filled split member ?_
  rw [gathering.covering.taskIds, ← aligned]
  exact mem_map_of_mem (mem_map_of_mem member)

/-- The invariant of orderly runs. -/
structure Sound (env : Environment) (settings : Settings) (splits : List (Int × String))
    (service : Service ι) : Prop where
  reached : Reached env settings splits service.queue
  aligned : ∀ manager, splitsOf (service.memory manager) = splits
  unmixed : ∀ manager, Unmixed service.queue (service.memory manager)
  stored : ∀ (key : String) (object : MetadataObject),
    service.queue.store.metadata[key]? = some object → OneRequest service.queue object
  phases : ∀ entry ∈ service.calls,
    PhaseSound env splits service.queue (service.memory entry.1.manager) entry.2
  alone : ∀ (first second : Nat) (left right : Call ι × Phase),
    service.calls[first]? = some left → service.calls[second]? = some right →
      left.2.inSection = true → right.2.inSection = true → first = second
  changes : ∀ number key, .changed number key ∈ service.history →
    .committed number ∈ service.history ∨
      ∃ entry ∈ service.calls, entry.1.number = number ∧ entry.2.isWriting = true
  unrejected : ∀ number, .rejected number ∉ service.history

/-- What one step of a call may do in an orderly run. -/
structure SoundOutcome (env : Environment) (settings : Settings) (splits : List (Int × String))
    (service : Service ι) (call : Call ι) (phase : Phase) (outcome : Outcome) : Prop where
  reached : Reached env settings splits outcome.queue
  grown : taskJournal service.queue.journal ⊆ taskJournal outcome.queue.journal
  aligned : splitsOf outcome.snap = splits
  unmixed : Unmixed outcome.queue outcome.snap
  stored : ∀ (key : String) (object : MetadataObject),
    outcome.queue.store.metadata[key]? = some object → OneRequest outcome.queue object
  next : ∀ next, outcome.next = some next → PhaseSound env splits outcome.queue outcome.snap next
  apart : phase.inSection = false →
    outcome.snap.splits.map profile = (service.memory call.manager).splits.map profile
  enters : ∀ next, outcome.next = some next → next.inSection = true →
    phase.inSection = true ∨ ∃ generation terminal, phase = .existing generation terminal
  changes : ∀ number key, .changed number key ∈ outcome.events →
    number = call.number ∧ phase.isWriting = true
  leaves : phase.isWriting = true → (∃ next, outcome.next = some next ∧ next.isWriting = true) ∨
    .committed call.number ∈ outcome.events
  unrejected : ∀ number, .rejected number ∉ outcome.events

variable {now : Int}

section Outcomes

variable {service : Service ι} {call : Call ι} {phase : Phase}

/-- A step that changes no store and no event, and builds nothing. -/
theorem Sound.quiet (sound : Sound env settings splits service) {next : Option Phase}
    (aligned : splitsOf snap = splits) (unmixed : Unmixed service.queue snap)
    (follows : ∀ following, next = some following →
      PhaseSound env splits service.queue snap following)
    (apart : phase.inSection = false →
      snap.splits.map profile = (service.memory call.manager).splits.map profile)
    (enters : ∀ following, next = some following → following.inSection = true →
      phase.inSection = true ∨ ∃ generation terminal, phase = .existing generation terminal)
    (leaves : phase.isWriting = true → ∃ following, next = some following ∧
      following.isWriting = true) :
    SoundOutcome env settings splits service call phase
      { queue := service.queue, snap := snap, next := next } where
  reached := sound.reached
  grown := .refl _
  aligned := aligned
  unmixed := unmixed
  stored := sound.stored
  next := follows
  apart := apart
  enters := enters
  changes number key member := by cases member
  leaves writing := .inl (leaves writing)
  unrejected number member := by cases member

/-- A step outside sections that makes one operation of the queue. -/
theorem Sound.operating (sound : Sound env settings splits service) (operation : Operation)
    (permitted : operation.Permitted ⟨CoversSplits splits, fun _ => OneRequest service.queue⟩)
    {next : Option Phase} (idle : phase.isWriting = false)
    (follows : ∀ following, next = some following → following.inSection = false ∧
      PhaseSound env splits (execute env settings service.queue operation)
        (service.memory call.manager) following) :
    SoundOutcome env settings splits service call phase
      { queue := execute env settings service.queue operation
        snap := service.memory call.manager
        next := next } := by
  obtain ⟨reached, grown, stored⟩ := sound.reached.operate operation permitted sound.stored
  exact
    { reached := reached
      grown := grown
      aligned := sound.aligned call.manager
      unmixed := (sound.unmixed call.manager).mono grown
      stored := stored
      next := fun following went => (follows following went).2
      apart := fun _ => rfl
      enters := by
        intro following went inside
        rw [(follows following went).1] at inside
        cases inside
      changes := fun number key member => by cases member
      leaves := by
        intro writing
        rw [idle] at writing
        cases writing
      unrejected := fun number member => by cases member }

variable [DecidableEq ι]

/-- The steps of a call before its section, and its closing ones. -/
theorem Sound.advance_outside (sound : Sound env settings splits service) (now : Int) (live : Bool)
    (holds : PhaseSound env splits service.queue (service.memory call.manager) phase)
    (outside : phase.inSection = false) :
    SoundOutcome env settings splits service call phase
      (call.advance env settings config service now live phase) := by
  have aligned := sound.aligned call.manager
  have unmixed := sound.unmixed call.manager
  cases phase with
  | generation =>
    simp only [Call.advance]
    split
    · refine sound.quiet ?_ ⟨unmixed.metadata, unmixed.manifestList, unmixed.manifestFile,
        unmixed.deltaCommit⟩ ?_ (fun _ => rememberKeys_profile _) ?_ ?_
      · rw [splitsOf_congr (rememberKeys_profile _), aligned]
      · rintro following ⟨⟩
        trivial
      · rintro following ⟨⟩ ⟨⟩
      · rintro ⟨⟩
    · refine sound.quiet aligned unmixed ?_ (fun _ => rfl) ?_ ?_
      · rintro following ⟨⟩
      · rintro following ⟨⟩
      · rintro ⟨⟩
  | create generation =>
    refine sound.operating (.createRequest _) ?_ rfl ?_
    · have tasks : CoversSplits (splitsOf (service.memory call.manager)) (createCall config
          (service.memory call.manager) generation call.requestedKey now) := by
        simp only [CoversSplits, createCall, map_map]
        rfl
      rw [aligned] at tasks
      exact tasks
    · intro following went
      obtain ⟨request, _, rfl⟩ := Option.map_eq_some_iff.mp went
      exact ⟨rfl, trivial⟩
  | wait generation requestId =>
    refine sound.operating (.expireClaims now) trivial rfl ?_
    rintro following ⟨⟩
    exact ⟨rfl, trivial⟩
  | poll generation requestId =>
    refine sound.quiet aligned unmixed ?_ (fun _ => rfl) ?_ ?_
    · intro following went
      obtain ⟨request, stored, chosen⟩ := Option.bind_eq_some_iff.mp went
      split at chosen
      · cases chosen
        trivial
      · split at chosen
        · cases chosen
          exact sound.reached.covering stored
        · cases chosen
    · intro following went inside
      obtain ⟨request, stored, chosen⟩ := Option.bind_eq_some_iff.mp went
      split at chosen
      · cases chosen
        cases inside
      · split at chosen
        · cases chosen
          cases inside
        · cases chosen
    · rintro ⟨⟩
  | lock generation terminal =>
    refine sound.quiet aligned unmixed ?_ (fun _ => rfl) ?_ ?_
    · rintro following ⟨⟩
      split <;> exact holds
    · rintro following ⟨⟩ inside
      split at inside <;> cases inside
    · rintro ⟨⟩
  | existing generation terminal =>
    refine sound.quiet aligned unmixed ?_ (fun _ => rfl) ?_ ?_
    · rintro following ⟨⟩
      split
      · trivial
      · exact ⟨[], rfl, holds, fun split _ finished => by cases finished⟩
    · rintro following ⟨⟩ inside
      exact .inr ⟨generation, terminal, rfl⟩
    · rintro ⟨⟩
  | pruneExisting generation terminal =>
    refine sound.operating (existingPruning service.queue generation terminal) trivial rfl ?_
    rintro following ⟨⟩
  | prune gathered =>
    refine sound.operating (.pruneStaging _ _ _) trivial rfl ?_
    rintro following ⟨⟩
  | _ => cases outside

/-- The steps of a call in its section. -/
theorem Sound.advance_inside (sound : Sound env settings splits service)
    (distinct : (splits.map Prod.fst).Nodup) (now : Int) (live : Bool)
    (holds : PhaseSound env splits service.queue (service.memory call.manager) phase)
    (inside : phase.inSection = true)
    (admitted : ∀ gathered, phase = .publish gathered → live = true ∧
      (preparePublication env gathered.terminal.requestId
        (manifestOf config (service.memory call.manager) gathered now) now
        service.queue.store).toOption.isSome = true) :
    SoundOutcome env settings splits service call phase
      (call.advance env settings config service now live phase) := by
  have aligned := sound.aligned call.manager
  have unmixed := sound.unmixed call.manager
  have stays : ∀ following : Phase, following.inSection = true → phase.inSection = true ∨
      ∃ generation terminal, phase = .existing generation terminal := fun _ _ => .inl inside
  cases phase with
  | read gathered taskIds =>
    obtain ⟨done, shape, gathering⟩ := holds
    cases taskIds with
    | nil =>
      rw [append_nil] at shape
      have kept : (if config.format = .delta then invalidateTable (service.memory call.manager)
          else service.memory call.manager).splits = (service.memory call.manager).splits := by
        split <;> rfl
      refine sound.quiet ?_ ?_ ?_ (fun outside => by cases outside) (fun _ _ => stays _) ?_
      · rw [splitsOf, kept]
        exact aligned
      · split
        · exact { unmixed with deltaCommit := fun object built => by cases built }
        · exact unmixed
      · rintro following ⟨⟩
        refine ⟨gathering.covering, ?_⟩
        rw [shape]
        exact gathering.filled.congr (by rw [kept])
      · rintro ⟨⟩
    | cons taskId taskIds =>
      refine sound.quiet aligned unmixed ?_ (fun _ => rfl) (fun _ _ => stays _) ?_
      · intro following went
        obtain ⟨record, stored, reporting⟩ := Option.bind_eq_some_iff.mp went
        obtain ⟨result, reported, rfl⟩ := Option.map_eq_some_iff.mp reporting
        have listed : taskId ∈ gathered.terminal.taskIds := by
          rw [shape]
          exact mem_append_right _ mem_cons_self
        obtain ⟨sameRequest, named⟩ := gathering.covering.task_of sound.reached.owned listed stored
        refine ⟨done, shape, gathering, named, fun objectKey output => ?_⟩
        rw [← sameRequest]
        exact sound.reached.accepted stored reported output
      · rintro ⟨⟩
  | assign gathered taskId task result taskIds =>
    obtain ⟨done, shape, gathering, named, accepted⟩ := holds
    simp only [Call.advance]
    split
    · refine sound.quiet aligned unmixed ?_ (fun _ => rfl) (fun _ _ => stays _) ?_
      · rintro following ⟨⟩
      · rintro ⟨⟩
    · next extended assigned copied =>
      obtain ⟨sameTerminal, before, split, after, objectKey, _, _, _, same⟩ :=
        assignResult_some copied
      have indices : ((service.memory call.manager).splits.map
          SplitDescriptor.splitIndex).Nodup := by
        rw [← aligned, splitsOf, map_map] at distinct
        exact distinct
      refine sound.quiet ?_ ?_ ?_ (fun outside => by cases outside) (fun _ _ => stays _) ?_
      · rw [assignResult_splitsOf copied, aligned]
      · rw [same]
        exact ⟨unmixed.metadata, unmixed.manifestList, unmixed.manifestFile,
          unmixed.deltaCommit⟩
      · rintro following ⟨⟩
        refine ⟨done ++ [taskId], ?_, ?_⟩
        · rw [sameTerminal, shape, append_assoc]
          rfl
        · refine ⟨by rw [sameTerminal]; exact gathering.covering, ?_⟩
          rw [sameTerminal]
          exact gathering.filled.assign copied indices gathering.covering.hashed named accepted
      · rintro ⟨⟩
  | build gathered kinds =>
    cases kinds with
    | nil =>
      refine sound.quiet aligned unmixed ?_ (fun _ => rfl) (fun _ _ => stays _) ?_
      · rintro following ⟨⟩
        exact holds
      · exact fun _ => ⟨_, rfl, rfl⟩
    | cons kind kinds =>
      have built := buildObject_sound unmixed (Gathering.accepted holds aligned)
        config.encodedLength kind
      refine sound.quiet ?_ built.unmixed ?_ (fun outside => by cases outside)
        (fun _ _ => stays _) ?_
      · rw [splitsOf, built.splits]
        exact aligned
      · rintro following ⟨⟩
        exact ⟨.mono holds (List.Subset.refl _) (by rw [built.splits]), built.object⟩
      · exact fun _ => ⟨_, rfl, rfl⟩
  | put gathered key object kinds =>
    obtain ⟨reached, grown, stored⟩ :=
      sound.reached.operate (.changeMetadata key object) holds.2 sound.stored
    exact
      { reached := reached
        grown := grown
        aligned := aligned
        unmixed := unmixed.mono grown
        stored := stored
        next := by
          rintro following ⟨⟩
          exact ⟨holds.1.covering, holds.1.filled.mono grown⟩
        apart := fun _ => rfl
        enters := fun _ _ => stays _
        changes := by
          intro number other member
          simp only [Call.advance] at member
          split at member
          · cases member
          · cases mem_singleton.mp member
            exact ⟨rfl, rfl⟩
        leaves := fun _ => .inl ⟨_, rfl, rfl⟩
        unrejected := by
          intro number member
          simp only [Call.advance] at member
          split at member
          · cases member
          · cases mem_singleton.mp member }
  | publish gathered =>
    obtain ⟨lively, prepared⟩ := admitted gathered rfl
    have passes : live = true ∧ (publishSnapshot env gathered.terminal.requestId
        (manifestOf config (service.memory call.manager) gathered now) now
        service.queue).1.toOption.isSome = true := by
      refine ⟨lively, ?_⟩
      unfold publishSnapshot
      split
      · next error failed =>
        rw [failed] at prepared
        cases prepared
      · rfl
    obtain ⟨reached, grown, stored⟩ := sound.reached.operate
      (.publishSnapshot gathered.terminal.requestId
        (manifestOf config (service.memory call.manager) gathered now) now) trivial sound.stored
    simp only [Call.advance, if_pos passes]
    exact
      { reached := reached
        grown := grown
        aligned := aligned
        unmixed := unmixed.mono grown
        stored := stored
        next := by
          rintro following ⟨⟩
          trivial
        apart := fun _ => rfl
        enters := fun _ _ => stays _
        changes := by
          intro number key member
          cases mem_singleton.mp member
        leaves := fun _ => .inr (mem_singleton.mpr rfl)
        unrejected := by
          intro number member
          cases mem_singleton.mp member }
  | _ => cases inside

end Outcomes

/-! ## Orderly runs -/

/-- The invariant holds before anything happened. -/
theorem sound_start (fresh : FreshSnapshot) : Sound env settings (splitsOf fresh.snap)
    ({ memory := fun _ => fresh.snap } : Service ι) where
  reached := .refl
  aligned _ := rfl
  unmixed _ := by
    obtain ⟨metadata, manifestList, manifestFile, deltaCommit⟩ := fresh.unbuilt
    exact ⟨by simp [metadata], by simp [manifestList], by simp [manifestFile], by simp [deltaCommit]⟩
  stored key object found := by simp at found
  phases entry member := by cases member
  alone first second left right foundLeft := by cases foundLeft
  changes number key member := by cases member
  unrejected number member := by cases member

variable {service : Service ι}

section Advanced

variable {index : Nat} {now : Int} {live : Bool} {call : Call ι} {phase : Phase} {result : Outcome}
  (sound : Sound env settings splits service)
  (pending : service.calls[index]? = some (call, phase))
  (outcome : SoundOutcome env settings splits service call phase result)

include sound pending outcome

/-- Sections still do not overlap: whoever else is in one was so before, and the
advanced call was too, or enters when nobody is. -/
theorem SoundOutcome.alone
    (vacant : ∀ generation terminal, phase = .existing generation terminal →
      ∀ entry ∈ service.calls, entry.2.inSection = false) :
    ∀ (first second : Nat) (left right : Call ι × Phase),
      (continueAt service.calls index (result.next.map (.mk call)))[first]? = some left →
      (continueAt service.calls index (result.next.map (.mk call)))[second]? = some right →
      left.2.inSection = true → right.2.inSection = true → first = second := by
  have clash : ∀ (position : Nat) (entry : Call ι × Phase) (next : Phase),
      result.next = some next → next.inSection = true →
        service.calls[position]? = some entry → entry.2.inSection = true → position = index := by
    intro position entry next went inside earlier entryInside
    rcases outcome.enters next went inside with also | ⟨generation, terminal, same⟩
    · exact sound.alone _ _ _ _ earlier pending entryInside also
    · rw [vacant generation terminal same entry (mem_of_getElem? earlier)] at entryInside
      cases entryInside
  obtain ⟨origin, injective, origins⟩ :=
    exists_origin service.calls index (result.next.map (.mk call))
  intro first second left right foundLeft foundRight insideLeft insideRight
  rcases origins first left foundLeft with ⟨here, nextLeft⟩ | ⟨apart, earlierLeft⟩
  · rcases origins second right foundRight with ⟨alsoHere, _⟩ | ⟨apart, earlierRight⟩
    · rw [here, alsoHere]
    · obtain ⟨next, went, rfl⟩ := Option.map_eq_some_iff.mp nextLeft
      exact absurd (clash _ _ next went insideLeft earlierRight insideRight) apart
  · rcases origins second right foundRight with ⟨_, nextRight⟩ | ⟨_, earlierRight⟩
    · obtain ⟨next, went, rfl⟩ := Option.map_eq_some_iff.mp nextRight
      exact absurd (clash _ _ next went insideRight earlierLeft insideLeft) apart
    · exact injective (sound.alone _ _ _ _ earlierLeft earlierRight insideLeft insideRight)

/-- Every change is still by a call that commits or is writing. -/
theorem SoundOutcome.accounted : ∀ number key,
    .changed number key ∈ result.events ++ service.history →
      .committed number ∈ result.events ++ service.history ∨
        ∃ entry ∈ continueAt service.calls index (result.next.map (.mk call)),
          entry.1.number = number ∧ entry.2.isWriting = true := by
  have advanced : phase.isWriting = true →
      .committed call.number ∈ result.events ++ service.history ∨
        ∃ entry ∈ continueAt service.calls index (result.next.map (.mk call)),
          entry.1.number = call.number ∧ entry.2.isWriting = true := by
    intro writing
    rcases outcome.leaves writing with ⟨next, went, goesOn⟩ | commits
    · refine .inr ⟨(call, next), ?_, rfl, goesOn⟩
      rw [went]
      exact mem_continueAt_self pending
    · exact .inl (mem_append_left _ commits)
  intro number key member
  rcases mem_append.mp member with fresh | earlier
  · obtain ⟨rfl, writing⟩ := outcome.changes number key fresh
    exact advanced writing
  · rcases sound.changes number key earlier with commits | ⟨entry, inside, rfl, writing⟩
    · exact .inl (mem_append_right _ commits)
    · obtain ⟨position, found⟩ := mem_iff_getElem?.mp inside
      by_cases same : position = index
      · rw [same, pending] at found
        cases found
        exact advanced writing
      · exact .inr ⟨entry, mem_continueAt_of_ne found same, rfl, writing⟩

variable [DecidableEq ι]

/-- The advanced call goes on soundly and disturbs no other: another call in its
section would be on another Manager or share its section. -/
theorem SoundOutcome.phases : ∀ entry ∈ continueAt service.calls index
      (result.next.map (.mk call)), PhaseSound env splits result.queue
        (Function.update service.memory call.manager result.snap entry.1.manager) entry.2 := by
  intro entry member
  obtain ⟨position, found⟩ := mem_iff_getElem?.mp member
  obtain ⟨origin, _, origins⟩ :=
    exists_origin service.calls index (result.next.map (.mk call))
  rcases origins position entry found with ⟨_, continued⟩ | ⟨elsewhere, earlier⟩
  · obtain ⟨next, went, rfl⟩ := Option.map_eq_some_iff.mp continued
    rw [Function.update_self]
    exact outcome.next next went
  · refine (sound.phases entry (mem_of_getElem? earlier)).mono outcome.grown ?_
    intro inside
    by_cases same : entry.1.manager = call.manager
    · rw [same, Function.update_self]
      refine outcome.apart ?_
      cases also : phase.inSection with
      | false => rfl
      | true => exact absurd (sound.alone _ _ _ _ earlier pending inside also) elsewhere
    · rw [Function.update_of_ne same]

end Advanced

variable [DecidableEq ι]

section

variable (sound : Sound env settings splits service) (distinct : (splits.map Prod.fst).Nodup)
include sound distinct

/-- The call that an orderly step advances, and what the step does. -/
theorem Sound.advance {index : Nat} {live : Bool} {call : Call ι} {phase : Phase}
    (pending : service.calls[index]? = some (call, phase))
    (ordered : orderly env config service (.advance index now live) = true) :
    SoundOutcome env settings splits service call phase
      (call.advance env settings config service now live phase) := by
  have holds := sound.phases _ (mem_of_getElem? pending)
  cases inside : phase.inSection with
  | false => exact sound.advance_outside now live holds inside
  | true =>
    refine sound.advance_inside distinct now live holds inside ?_
    rintro gathered rfl
    simpa only [orderly, pending, Bool.and_eq_true] using ordered

theorem Sound.step_advance {index : Nat} {live : Bool}
    (ordered : orderly env config service (.advance index now live) = true) :
    Sound env settings splits (service.step env settings config (.advance index now live)) := by
  cases pending : service.calls[index]? with
  | none =>
    have same : service.step env settings config (.advance index now live) = service := by
      simp only [Service.step, pending]
    rw [same]
    exact sound
  | some entry =>
    obtain ⟨call, phase⟩ := entry
    have outcome := sound.advance distinct pending ordered
    simp only [Service.step, pending]
    exact
      { reached := outcome.reached
        aligned := (Function.forall_update_iff service.memory fun _ snap =>
          splitsOf snap = splits).mpr ⟨outcome.aligned, fun manager _ => sound.aligned manager⟩
        unmixed := (Function.forall_update_iff service.memory fun _ snap =>
          Unmixed _ snap).mpr
            ⟨outcome.unmixed, fun manager _ => (sound.unmixed manager).mono outcome.grown⟩
        stored := outcome.stored
        phases := outcome.phases sound pending
        alone := outcome.alone sound pending (by
          rintro generation terminal rfl
          simpa only [orderly, pending, Bool.not_eq_true', any_eq_false, Bool.not_eq_true]
            using ordered)
        changes := outcome.accounted sound pending
        unrejected := by
          intro number member
          rcases mem_append.mp member with fresh | earlier
          · exact outcome.unrejected number fresh
          · exact sound.unrejected number earlier }

/-- Every orderly event keeps the invariant. -/
theorem Sound.step (action : Action ι) (ordered : orderly env config service action = true) :
    Sound env settings splits (service.step env settings config action) := by
  cases action with
  | advance index now live => exact sound.step_advance distinct ordered
  | call manager requestedKey =>
    exact
      { sound with
        phases := by
          intro entry member
          rcases mem_cons.mp member with rfl | earlier
          · trivial
          · exact sound.phases entry earlier
        alone := by
          intro first second left right foundLeft foundRight insideLeft insideRight
          cases first with
          | zero =>
            cases foundLeft
            cases insideLeft
          | succ first =>
            cases second with
            | zero =>
              cases foundRight
              cases insideRight
            | succ second =>
              exact congrArg (· + 1)
                (sound.alone _ _ _ _ foundLeft foundRight insideLeft insideRight)
        changes := by
          intro number key member
          rcases sound.changes number key member with commits | ⟨entry, inside, writing⟩
          · exact .inl commits
          · exact .inr ⟨entry, mem_cons_of_mem _ inside, writing⟩ }
  | abandon index =>
    obtain ⟨origin, injective, origins⟩ := exists_origin service.calls index none
    exact
      { sound with
        phases := fun entry member => sound.phases entry (mem_of_mem_eraseIdx member)
        alone := by
          intro first second left right foundLeft foundRight insideLeft insideRight
          obtain ⟨_, impossible⟩ | ⟨_, earlierLeft⟩ := origins first left foundLeft
          · cases impossible
          obtain ⟨_, impossible⟩ | ⟨_, earlierRight⟩ := origins second right foundRight
          · cases impossible
          exact injective (sound.alone _ _ _ _ earlierLeft earlierRight insideLeft insideRight)
        changes := by
          intro number key member
          rcases sound.changes number key member with commits | ⟨entry, inside, same, writing⟩
          · exact .inl commits
          · obtain ⟨position, found⟩ := mem_iff_getElem?.mp inside
            by_cases here : position = index
            · rw [orderly, ← here, found] at ordered
              simp [writing] at ordered
            · have kept : entry ∈ continueAt service.calls index none :=
                mem_continueAt_of_ne found here
              exact .inr ⟨entry, kept, same, writing⟩ }
  | queue operation =>
    simp only [Service.step]
    split
    · next outside =>
      have permitted :
          operation.Permitted ⟨CoversSplits splits, fun _ => OneRequest service.queue⟩ := by
        cases operation with
        | createRequest | changeMetadata => cases outside
        | _ => trivial
      obtain ⟨reached, grown, stored⟩ := sound.reached.operate operation permitted sound.stored
      exact
        { sound with
          reached := reached
          unmixed := fun manager => (sound.unmixed manager).mono grown
          stored := stored
          phases := fun entry member => (sound.phases entry member).mono grown fun _ => rfl }
    · exact sound

end

end Calls

/-- A table with two splits. -/
def twoSplits : FreshSnapshot where
  snap := {
    name := "t"
    tablePath := "t"
    snapshotId := 1
    manifestListKey := "l"
    manifestFileKey := "f"
    metadataKey := "m"
    versionHintKey := "v"
    splits := [{ splitIndex := 0, objectKey := "0" }, { splitIndex := 1, objectKey := "1" }] }
  unbuilt := by decide
  unassigned := by decide
  distinct := by decide

/-- A Manager that serves it as an Iceberg table. -/
def icebergConfig : Config where
  format := .iceberg
  connectionId := "c"
  sourceTable := "s"
  connectionFingerprint := ""
  keyColumn := ""
  splitStrategy := ""
  tenantId := ""
  requestTimeoutSeconds := 60
  encodedLength := fun _ => 0

/-- A generation as the coordinator record gives it. -/
def generationOf (generationId : String) (fence : Int) : GenerationContext where
  generationId := generationId
  fence := fence
  leaseToken := ""
  shardCount := 1
  expiresAtMs := 90000

/-- A coordinator installs a generation. -/
def installGeneration (generationId : String) (fence : Int) : Action Unit :=
  .queue (.changeCoordinator (some (toRecord (generationOf generationId fence))))

/-- The request that a call makes under a generation. -/
def requestUnder (generationId : String) (fence : Int) : CreateCall :=
  createCall icebergConfig twoSplits.snap (generationOf generationId fence) "t" 1000

/-- The task of one of its splits. -/
def taskUnder (generationId : String) (fence : Int) (split : SplitDescriptor) : MaterializeTask :=
  taskOf icebergConfig twoSplits.snap (generationOf generationId fence) 1000 split

/-- A call under a new generation makes its request, and an Agent finishes it. -/
def requested (generationId : String) (fence : Int) : List (Action Unit) :=
  installGeneration generationId fence :: .call () "t" :: .advance 0 1000 true ::
    .advance 0 1000 true :: twoSplits.snap.splits.flatMap fun split =>
      ((finishing .transparent (requestUnder generationId fence)
        (taskUnder generationId fence split) "k" [1]).drop 1).map .queue

/-- The call at this position makes some of its steps on a live Manager. -/
def proceed (index steps : Nat) : List (Action Unit) :=
  .replicate steps (.advance index 1000 true)

end ShortcutProxy.MaterializeService
