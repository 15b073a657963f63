import ShortcutProxy.MetadataPublication

/-!
# Manifests of successive publications

A Manager that serves its tables as Iceberg handles calls of `materialize_for_key`
one after another. Each call copies the results of its tasks into the snapshot of
its table, has the metadata objects built from that snapshot, and publishes the
results as a snapshot manifest. The builders remember what they built, and
`materialize_for_key` never makes them forget it, unlike the direct and the
federated path. The second generation of a table is therefore published with the
manifest of the first.

While nothing is remembered the two agree. The tasks of a request are the splits of
its table in their order, so the results copied so far describe a first part of
the splits; once all are copied, the manifest built from the splits lists exactly
the published results.
-/
namespace ShortcutProxy.MaterializeService

open Contract Generation Records TableMetadata WorkQueue List Function

/-! ## A Manager with several tables -/

/-- The tables of a Manager by their names: the configuration of each and its
snapshot as registered. The names of the metadata files of one table differ. -/
structure Catalog where
  config : String → Config
  fresh : String → FreshSnapshot
  iceberg : ∀ table, (config table).format = .iceberg
  named : ∀ table, (fresh table).snap.name = table
  listApart : ∀ table,
    (fresh table).snap.manifestListKey ≠ (fresh table).snap.manifestFileKey
  hintApart : ∀ table,
    (fresh table).snap.versionHintKey ≠ (fresh table).snap.manifestListKey ∧
      (fresh table).snap.versionHintKey ≠ (fresh table).snap.manifestFileKey

/-- A Manager with its snapshots in memory and the call that it handles. The
Manager of a `Call` is here the part of its memory that the call works on, which
is the snapshot of its table. -/
structure Session where
  queue : QueueState := {}
  memory : String → SnapshotState
  current : Option (Call String × Phase) := none
  started : Nat := 0

/-- The session as a step of its call sees it: no other call holds a lock. -/
def Session.service (session : Session) : Service String where
  queue := session.queue
  memory := session.memory

/-- What may happen next. A new call waits until the current one has ended. -/
inductive Turn where
  | call (table requestedKey : String)
  | advance (now : Int) (live : Bool)
  | abandon
  | queue (operation : Operation)

section Turns

variable (env : Environment) (settings : Settings) (catalog : Catalog)

/-- The state after one turn. -/
def Session.step (session : Session) : Turn → Session
  | .call table requestedKey =>
    if session.current.isSome then session
    else
      { session with
        current := some (⟨session.started, table, requestedKey⟩, .generation)
        started := session.started + 1 }
  | .advance now live =>
    match session.current with
    | none => session
    | some (call, phase) =>
      let outcome := call.advance env settings (catalog.config call.manager) session.service
        now live phase
      { session with
        queue := outcome.queue
        memory := Function.update session.memory call.manager outcome.snap
        current := outcome.next.map (.mk call) }
  | .abandon => { session with current := none }
  | .queue operation =>
    if external operation then
      { session with queue := execute env settings session.queue operation }
    else session

/-- A Manager that has just registered its tables. -/
def Catalog.start : Session where
  memory table := (catalog.fresh table).snap

/-- The state after a list of turns. -/
def Catalog.session (turns : List Turn) : Session :=
  turns.foldl (.step env settings catalog) catalog.start

/-- The manifest that a turn commits. -/
def Session.commits (session : Session) : Turn → Option SnapshotManifest
  | .advance now live =>
    match session.current with
    | some (call, .publish gathered) =>
      let manifest := manifestOf (catalog.config call.manager) (session.memory call.manager)
        gathered now
      if live ∧ (publishSnapshot env gathered.terminal.requestId manifest now
          session.queue).1.toOption.isSome then
        some manifest
      else none
    | _ => none
  | _ => none

/-- The call does not start to write metadata while the builders remember a
manifest of its table. -/
def Session.buildsFirst (session : Session) : Turn → Bool
  | .advance _ _ =>
    match session.current with
    | some (call, .read _ []) =>
      (session.memory call.manager).manifestListBytes.isNone &&
        (session.memory call.manager).manifestFileBytes.isNone
    | _ => true
  | _ => true

/-- No turn of a run from this state builds metadata a second time. -/
def buildsFirstFrom (session : Session) : List Turn → Bool
  | [] => true
  | turn :: rest => session.buildsFirst turn &&
      buildsFirstFrom (session.step env settings catalog turn) rest

end Turns

/-- A published split as a manifest lists it. -/
def listed (split : SplitRef) : DataFile where
  objectKey := split.objectKey
  recordCount := split.recordCount
  fileSize := split.sizeBytes

/-- The stored manifest of a table lists exactly these splits, and its manifest
list counts them and adds up their rows. -/
structure ListsSplits (encodedLength : MetadataObject → Int) (store : Store) (snap : SnapshotState)
    (splits : List SplitRef) : Prop where
  manifestFile : store.metadata[snap.manifestFileKey]? = some (.manifestFile (splits.map listed))
  manifestList : store.metadata[snap.manifestListKey]? = some
    (.manifestList snap.manifestFileKey (encodedLength (.manifestFile (splits.map listed)))
      splits.length (splits.map SplitRef.recordCount).sum)

/-! ## What the queue keeps -/

variable {taskId : String} {snap : SnapshotState} {gathered : Gathered}

section Queue

variable {env : Environment} {settings : Settings} {permits : Permits}

/-- A result that names its output also states its size and its rows. -/
def Measured (task : TaskRecord) : Prop :=
  ∀ result objectKey, task.result = some result → result.outputKey = some objectKey →
    ∃ size rows, result.sizeBytes = some size ∧ result.recordCount = some rows

theorem measured_of_none {task : TaskRecord} (unreported : task.result = none) : Measured task := by
  intro result objectKey reported
  rw [unreported] at reported
  cases reported

theorem TaskMove.measured {writer : Writer} {old new : TaskRecord}
    (move : TaskMove env writer (some old) (some new)) (other : writer ≠ .createRequest)
    (measured : Measured old) : Measured new := by
  cases move with
  | created _ _ _ _ _ => exact absurd rfl other
  | succeeded now result claim task held =>
    rintro saved objectKey ⟨⟩ _
    exact ⟨_, _, rfl, rfl⟩
  | reportedFailure settings now result task held =>
    rintro saved objectKey ⟨⟩ ⟨⟩
  | retried now deadline task failed => exact measured_of_none rfl
  | _ => exact measured

/-- Stored results stay measured. -/
theorem Update.measured {state next : QueueState} (update : Update env settings permits state next)
    (measured : ∀ (taskId : String) (task : TaskRecord),
      state.store.tasks[taskId]? = some task → Measured task) :
    ∀ (taskId : String) (task : TaskRecord),
      next.store.tasks[taskId]? = some task → Measured task := by
  intro taskId task stored
  cases update with
  | task writer key record move present =>
    simp only [QueueState.perform_store, Store.apply, getElem?_assign] at stored
    split at stored
    · subst stored
      obtain ⟨prior, found, _⟩ := move.origin present
      rw [found] at move
      exact TaskMove.measured move present (measured key prior found)
    · exact measured taskId task stored
  | create call permitted absent =>
    rcases writeRequest_tasks stored with earlier | ⟨_, _, rfl, _⟩
    · exact measured taskId task earlier
    · exact measured_of_none rfl
  | forget writer requestId first second childless both =>
    rcases both with ⟨rfl, rfl⟩ | ⟨rfl, rfl⟩ <;> exact measured taskId task stored
  | request | remember | metadata => exact measured taskId task stored
  | neutral writer write neutral =>
    cases write with
    | task _ _ => cases neutral
    | _ => exact measured taskId task stored

/-- What a queue keeps while no request is created and no metadata written. -/
structure Undisturbed (before after : QueueState) : Prop where
  metadata : after.store.metadata = before.store.metadata
  tables : ∀ (requestId : String) (request : RequestRecord),
    after.store.requests[requestId]? = some request →
      ∃ old, before.store.requests[requestId]? = some old ∧ old.table = request.table

theorem Undisturbed.refl (queue : QueueState) : Undisturbed queue queue :=
  ⟨rfl, fun _ request stored => ⟨request, stored, rfl⟩⟩

theorem Undisturbed.trans {first second third : QueueState} (left : Undisturbed first second)
    (right : Undisturbed second third) : Undisturbed first third where
  metadata := right.metadata.trans left.metadata
  tables requestId request stored := by
    obtain ⟨middle, found, sameMiddle⟩ := right.tables requestId request stored
    obtain ⟨old, earlier, sameOld⟩ := left.tables requestId middle found
    exact ⟨old, earlier, sameOld.trans sameMiddle⟩

/-- An update of an environment that may neither create nor describe. -/
theorem Update.undisturbed {state next : QueueState}
    (update : Update env settings ⟨fun _ => False, fun _ _ => False⟩ state next) :
    Undisturbed state next := by
  constructor
  · cases update with
    | create call permitted absent | metadata writer key object permitted => exact permitted.elim
    | forget writer key first second childless both =>
      rcases both with ⟨rfl, rfl⟩ | ⟨rfl, rfl⟩ <;> rfl
    | neutral writer write neutral =>
      cases write with
      | metadata _ _ => cases neutral
      | _ => rfl
    | _ => rfl
  · intro requestId request stored
    rcases update.request_cases stored with earlier | ⟨writer, old, found, move⟩ | ⟨_, impossible, _⟩
    · exact ⟨request, earlier, rfl⟩
    · exact ⟨old, found, move.table_eq.symm⟩
    · exact impossible.elim

theorem Updates.undisturbed {first second : QueueState}
    (updates : Updates env settings ⟨fun _ => False, fun _ _ => False⟩ first second) :
    Undisturbed first second := by
  induction updates with
  | refl => exact .refl first
  | tail _ update ih =>
    exact ih.trans (Update.undisturbed update)

/-- An operation that neither creates a request nor writes metadata. -/
def Operation.Quiet (operation : Operation) : Prop :=
  operation.Permitted ⟨fun _ => False, fun _ _ => False⟩

variable {operation : Operation}

theorem quiet_of_external (outside : external operation = true) :
    Operation.Quiet operation := by
  cases operation with
  | createRequest | changeMetadata => cases outside
  | _ => trivial

theorem execute_undisturbed {queue : QueueState} (owned : Owned env queue.store)
    (quiet : Operation.Quiet operation) :
    Undisturbed queue (execute env settings queue operation) := by
  have updates : Updates env settings ⟨fun _ => False, fun _ _ => False⟩ queue
      (execute env settings queue operation) := (execute_moves queue operation quiet).leads owned
  exact Updates.undisturbed updates

/-- A creation that covers the splits of its table. -/
def Catalog.Covers (catalog : Catalog) (call : CreateCall) : Prop :=
  CoversSplits (splitsOf (catalog.fresh call.table).snap) call

/-- A queue in which every request covers the splits of its table. -/
def Catalog.Reached (catalog : Catalog) (env : Environment) (settings : Settings)
    (queue : QueueState) : Prop :=
  Updates env settings { creates := catalog.Covers } {} queue

variable {catalog : Catalog} {queue : QueueState}

section

variable (reached : catalog.Reached env settings queue)
include reached

theorem Catalog.Reached.owned :
    Owned env queue.store :=
  Updates.owned reached owned_empty

theorem Catalog.Reached.covering {requestId : String} {request : RequestRecord}
    (stored : queue.store.requests[requestId]? = some request) :
    Covering env (splitsOf (catalog.fresh request.table).snap) request := by
  induction reached generalizing requestId request with
  | refl => simp at stored
  | tail _ update ih =>
    exact @Update.covering _ _ _ (fun table => splitsOf (catalog.fresh table).snap) _ _ update
      (fun _ permitted => permitted) (fun _ _ earlier => ih earlier)
      requestId request stored

theorem Catalog.Reached.measured {task : TaskRecord}
    (stored : queue.store.tasks[taskId]? = some task) : Measured task := by
  induction reached generalizing taskId task with
  | refl => simp at stored
  | tail _ update ih =>
    exact Update.measured update (fun _ _ earlier => ih earlier) taskId task stored

theorem Catalog.Reached.operate (operation : Operation)
    (permitted : operation.Permitted { creates := catalog.Covers }) :
    catalog.Reached env settings (execute env settings queue operation) :=
  Relation.ReflTransGen.trans reached ((execute_moves queue operation permitted).leads reached.owned)

end

theorem permitted_of_quiet (quiet : Operation.Quiet operation) :
    operation.Permitted { creates := catalog.Covers } := by
  cases operation with
  | createRequest call => exact quiet.elim
  | _ => trivial

end Queue

/-! ## Copying results in the order of the splits -/

section Copying

variable {env : Environment}

/-- The identifier of the task of a split. -/
def taskIdFor (env : Environment) (requestId : String) (split : SplitDescriptor) : String :=
  splitTaskId env requestId (split.splitIndex, canonicalKey split)

/-- The results gathered so far describe a first part of the splits, and the
remaining tasks are those of the rest. -/
def Copied (env : Environment) (snap : SnapshotState) (gathered : Gathered)
    (taskIds : List String) : Prop :=
  ∃ before after, snap.splits = before ++ after ∧
    after.map (taskIdFor env gathered.terminal.requestId) = taskIds ∧
    before.map manifestEntry = gathered.splitRefs.map listed

/-- The results gathered describe the splits. -/
def Complete (snap : SnapshotState) (gathered : Gathered) : Prop :=
  snap.splits.map manifestEntry = gathered.splitRefs.map listed

theorem Copied.complete (copied : Copied env snap gathered []) : Complete snap gathered := by
  obtain ⟨before, after, shape, none, described⟩ := copied
  obtain rfl := map_eq_nil_iff.mp none
  rw [Complete, shape, append_nil, described]

variable {result : SavedResult}

/-- What copying a result adds to the published splits. -/
theorem assignResult_splitRefs {extended : Gathered} {task : MaterializeTask}
    {assigned : SnapshotState}
    (copied : assignResult env gathered taskId task result snap = some (extended, assigned)) :
    extended.splitRefs = gathered.splitRefs ++ [{
      objectKey := result.outputKey.getD ""
      sizeBytes := result.sizeBytes.getD 0
      recordCount := result.recordCount.getD 0
      contentHash := result.contentHash.getD ""
      range := task.range }] := by
  simp only [assignResult] at copied
  split at copied
  · cases copied
  · split at copied
    · cases copied
      rfl
    · cases copied

/-- Copying the result of the next task describes the next split. -/
theorem Copied.assign {assigned : SnapshotState} {extended : Gathered} {taskIds : List String}
    {task : MaterializeTask}
    (copied : Copied env snap gathered (taskId :: taskIds))
    (distinct : (snap.splits.map SplitDescriptor.splitIndex).Nodup)
    (free : '|' ∉ gathered.terminal.requestId.toList)
    (named : taskId = taskIdOf env gathered.terminal.requestId task)
    (measured : ∀ objectKey, result.outputKey = some objectKey →
      ∃ size rows, result.sizeBytes = some size ∧ result.recordCount = some rows)
    (went : assignResult env gathered taskId task result snap = some (extended, assigned)) :
    Copied env assigned extended taskIds := by
  obtain ⟨before, after, shape, remaining, described⟩ := copied
  obtain ⟨sameTerminal, early, split, late, objectKey, output, found, matching, rfl⟩ :=
    assignResult_some went
  obtain ⟨size, rows, sized, counted⟩ := measured objectKey output
  obtain ⟨next, rest, rfl, nextTask, restTasks⟩ := map_eq_cons_iff.mp remaining
  -- The split that was changed has the index of the next one, so it is the next one.
  have sameIndex : next.splitIndex = split.splitIndex := by
    have identifiers : taskIdOf env gathered.terminal.requestId
        { task with splitIndex := next.splitIndex, outputKey := canonicalKey next } =
          taskIdOf env gathered.terminal.requestId task := by
      rw [← named, ← nextTask]
      rfl
    obtain ⟨_, index, _⟩ := taskIdOf_inj free free identifiers
    simp only [matchesTask, Bool.decide_and, Bool.and_eq_true, decide_eq_true_eq] at matching
    exact index.trans matching.1.symm
  rw [found] at distinct shape
  have elsewhere : ∀ part, part ⊆ early ++ late → next ∉ part := fun part inside member =>
    eq_of_nodup_map distinct (inside member) sameIndex
  obtain ⟨rfl, rfl, rfl⟩ := (append_cons_inj_of_notMem
    (elsewhere early (subset_append_left _ _))
    (elsewhere late (subset_append_right _ _))).mp shape
  refine ⟨early ++ [filled result objectKey split], late, by simp, ?_, ?_⟩
  · rw [sameTerminal]
    exact restTasks
  · rw [assignResult_splitRefs went, map_append, map_append, described, output]
    simp only [map_cons, map_nil, Option.getD_some, manifestEntry, filled, listed, sized,
      counted]

end Copying

/-! ## Writing the metadata objects -/

section Writing

/-- The manifest file of a snapshot. -/
def manifestOfSplits (snap : SnapshotState) : MetadataObject :=
  .manifestFile (snap.splits.map manifestEntry)

/-- The manifest list of a snapshot. -/
def listOfSplits (encodedLength : MetadataObject → Int) (snap : SnapshotState) : MetadataObject :=
  .manifestList snap.manifestFileKey (encodedLength (manifestOfSplits snap)) snap.splits.length
    (snap.splits.map fun split => split.recordCount.getD placeholderRecordCount).sum

/-- How far the metadata of a snapshot is written, by the objects still missing. -/
inductive Written (encodedLength : MetadataObject → Int) (stored : String → Option MetadataObject)
    (snap : SnapshotState) : List ObjectKind → Prop
  | start (noList : snap.manifestListBytes = none) (noFile : snap.manifestFileBytes = none) :
      Written encodedLength stored snap [.metadata, .manifestList, .manifestFile, .versionHint]
  | metadata (noList : snap.manifestListBytes = none) (noFile : snap.manifestFileBytes = none) :
      Written encodedLength stored snap [.manifestList, .manifestFile, .versionHint]
  | manifestList (built : snap.manifestFileBytes = some (manifestOfSplits snap))
      (list : stored snap.manifestListKey = some (listOfSplits encodedLength snap)) :
      Written encodedLength stored snap [.manifestFile, .versionHint]
  | manifestFile (list : stored snap.manifestListKey = some (listOfSplits encodedLength snap))
      (file : stored snap.manifestFileKey = some (manifestOfSplits snap)) :
      Written encodedLength stored snap [.versionHint]
  | versionHint (list : stored snap.manifestListKey = some (listOfSplits encodedLength snap))
      (file : stored snap.manifestFileKey = some (manifestOfSplits snap)) :
      Written encodedLength stored snap []

/-- What no step of a call changes in the snapshot of its table. -/
def label (snap : SnapshotState) : String × String × String × String :=
  (snap.name, snap.manifestListKey, snap.manifestFileKey, snap.versionHintKey)

/-- What building an object leaves alone. -/
structure KeepsSplits (snap built : SnapshotState) : Prop where
  label : label built = label snap
  splits : built.splits = snap.splits

theorem buildObject_keepsSplits (encodedLength : MetadataObject → Int) (snap : SnapshotState)
    (kind : ObjectKind) : KeepsSplits snap (buildObject encodedLength snap kind).2.2 := by
  cases kind with
  | metadata =>
    simp only [buildObject, buildMetadataJson]
    split <;> exact ⟨rfl, rfl⟩
  | manifestList =>
    simp only [buildObject, buildManifestList, buildManifestFile]
    split
    · exact ⟨rfl, rfl⟩
    · split <;> exact ⟨rfl, rfl⟩
  | manifestFile =>
    simp only [buildObject, buildManifestFile]
    split <;> exact ⟨rfl, rfl⟩
  | versionHint => exact ⟨rfl, rfl⟩
  | deltaCommit =>
    simp only [buildObject, buildDeltaCommit]
    split <;> exact ⟨rfl, rfl⟩

/-- Building the next object and storing it under its key. -/
theorem Written.build {encodedLength : MetadataObject → Int}
    {stored : String → Option MetadataObject} {kind : ObjectKind} {kinds : List ObjectKind}
    (written : Written encodedLength stored snap (kind :: kinds))
    (listApart : snap.manifestListKey ≠ snap.manifestFileKey)
    (hintApart : snap.versionHintKey ≠ snap.manifestListKey ∧
      snap.versionHintKey ≠ snap.manifestFileKey) :
    Written encodedLength
      (update stored (buildObject encodedLength snap kind).1
        (some (buildObject encodedLength snap kind).2.1))
      (buildObject encodedLength snap kind).2.2 kinds := by
  cases written with
  | start noList noFile =>
    simp only [buildObject, buildMetadataJson]
    split <;> exact .metadata noList noFile
  | metadata noList noFile =>
    simp only [buildObject, buildManifestList, buildManifestFile, noList, noFile]
    exact .manifestList rfl (update_self _ _ _)
  | manifestList built list =>
    simp only [buildObject, buildManifestFile, built]
    refine .manifestFile ?_ (update_self _ _ _)
    rw [update_of_ne listApart]
    exact list
  | manifestFile list file =>
    refine .versionHint ?_ ?_
    · simp only [buildObject]
      rw [update_of_ne hintApart.1.symm]
      exact list
    · simp only [buildObject]
      rw [update_of_ne hintApart.2.symm]
      exact file

/-- Once everything is written and the results describe the splits, the stored
manifest lists the results. -/
theorem Written.listsSplits {encodedLength : MetadataObject → Int} {store : Store}
    (written : Written encodedLength (fun key => store.metadata[key]?) snap [])
    (complete : Complete snap gathered) :
    ListsSplits encodedLength store snap gathered.splitRefs := by
  obtain ⟨list, file⟩ : _ ∧ _ := by
    cases written with
    | versionHint list file => exact ⟨list, file⟩
  have count : snap.splits.length = gathered.splitRefs.length := by
    simpa only [length_map] using congrArg List.length complete
  have rows : (snap.splits.map fun split => split.recordCount.getD placeholderRecordCount) =
      gathered.splitRefs.map SplitRef.recordCount := by
    have projected := congrArg (List.map DataFile.recordCount) complete
    simp only [map_map] at projected
    exact projected
  refine ⟨?_, ?_⟩
  · rw [file, manifestOfSplits, complete]
  · rw [list, listOfSplits, manifestOfSplits, complete, count, rows]

end Writing

/-! ## The call in progress -/

section Session

variable {env : Environment} {settings : Settings} {catalog : Catalog}
variable {queue : QueueState} {snap : SnapshotState} {table : String}

/-- A request read earlier: whatever is stored under its name is still of its
table, and it covers the splits of that table. -/
structure Current (env : Environment) (catalog : Catalog) (store : Store)
    (terminal : RequestRecord) : Prop where
  table : ∀ request, store.requests[terminal.requestId]? = some request →
    request.table = terminal.table
  covering : Covering env (splitsOf (catalog.fresh terminal.table).snap) terminal

/-- What holds of the call at each of its phases. Whether its request is one of
its own table only turns out when `publish_snapshot` checks it. -/
def CallSound (env : Environment) (catalog : Catalog) (store : Store) (snap : SnapshotState)
    (table : String) : Phase → Prop
  | .lock _ terminal | .existing _ terminal => Current env catalog store terminal
  | .read gathered taskIds => Current env catalog store gathered.terminal ∧
      (gathered.terminal.table = table → Copied env snap gathered taskIds)
  | .assign gathered taskId task result taskIds =>
    Current env catalog store gathered.terminal ∧
      (gathered.terminal.table = table → Copied env snap gathered (taskId :: taskIds) ∧
        taskId = taskIdOf env gathered.terminal.requestId task ∧
        ∀ objectKey, result.outputKey = some objectKey →
          ∃ size rows, result.sizeBytes = some size ∧ result.recordCount = some rows)
  | .build gathered kinds => Current env catalog store gathered.terminal ∧
      (gathered.terminal.table = table → Complete snap gathered) ∧
      Written (catalog.config table).encodedLength (fun key => store.metadata[key]?) snap kinds
  | .put gathered key object kinds => Current env catalog store gathered.terminal ∧
      (gathered.terminal.table = table → Complete snap gathered) ∧
      Written (catalog.config table).encodedLength
        (Function.update (fun key => store.metadata[key]?) key (some object)) snap kinds
  | .publish gathered => Current env catalog store gathered.terminal ∧
      (gathered.terminal.table = table → Complete snap gathered) ∧
      Written (catalog.config table).encodedLength (fun key => store.metadata[key]?) snap []
  | _ => True

theorem Current.mono {terminal : RequestRecord} {later : QueueState}
    (current : Current env catalog queue.store terminal) (kept : Undisturbed queue later) :
    Current env catalog later.store terminal where
  table request stored := by
    obtain ⟨old, earlier, same⟩ := kept.tables _ request stored
    exact same.symm.trans (current.table old earlier)
  covering := current.covering

/-- The call stays sound while the queue is not disturbed. -/
theorem CallSound.mono {phase : Phase} {later : QueueState}
    (sound : CallSound env catalog queue.store snap table phase) (kept : Undisturbed queue later) :
    CallSound env catalog later.store snap table phase := by
  cases phase with
  | lock | existing => exact Current.mono sound kept
  | read | assign => exact ⟨sound.1.mono kept, sound.2⟩
  | build | put | publish =>
    refine ⟨sound.1.mono kept, sound.2.1, ?_⟩
    rw [kept.metadata]
    exact sound.2.2
  | _ => trivial

/-- A snapshot in memory still belongs to its table. -/
structure OfTable (catalog : Catalog) (table : String) (snap : SnapshotState) : Prop where
  aligned : splitsOf snap = splitsOf (catalog.fresh table).snap
  label : label snap = label (catalog.fresh table).snap

section

variable (ofTable : OfTable catalog table snap)
include ofTable

theorem OfTable.congr {built : SnapshotState}
    (kept : KeepsSplits snap built) : OfTable catalog table built where
  aligned := by
    rw [splitsOf, kept.splits]
    exact ofTable.aligned
  label := kept.label.trans ofTable.label

theorem OfTable.name_eq : snap.name = table := by
  have named := congrArg Prod.fst ofTable.label
  exact named.trans (catalog.named table)

theorem OfTable.keys_eq :
    snap.manifestListKey = (catalog.fresh table).snap.manifestListKey ∧
      snap.manifestFileKey = (catalog.fresh table).snap.manifestFileKey ∧
      snap.versionHintKey = (catalog.fresh table).snap.versionHintKey := by
  simpa only [ShortcutProxy.MaterializeService.label, Prod.mk.injEq] using
    congrArg Prod.snd ofTable.label

theorem OfTable.distinct :
    (snap.splits.map SplitDescriptor.splitIndex).Nodup := by
  have indices := congrArg (List.map Prod.fst) ofTable.aligned
  simp only [splitsOf, map_map] at indices
  have same : snap.splits.map SplitDescriptor.splitIndex =
      (catalog.fresh table).snap.splits.map SplitDescriptor.splitIndex := indices
  rw [same]
  exact (catalog.fresh table).distinct

end

/-- The invariant of a session in which nothing is built twice. -/
structure SessionSound (env : Environment) (settings : Settings) (catalog : Catalog)
    (session : Session) : Prop where
  reached : catalog.Reached env settings session.queue
  tables : ∀ table, OfTable catalog table (session.memory table)
  call : ∀ call phase, session.current = some (call, phase) →
    CallSound env catalog session.queue.store (session.memory call.manager) call.manager phase

/-- What one step of the call may do. -/
structure SoundAdvance (env : Environment) (settings : Settings) (catalog : Catalog)
    (table : String) (outcome : Outcome) : Prop where
  reached : catalog.Reached env settings outcome.queue
  ofTable : OfTable catalog table outcome.snap
  next : ∀ phase, outcome.next = some phase →
    CallSound env catalog outcome.queue.store outcome.snap table phase

section Advance

variable {session : Session} {call : Call String} {phase : Phase} {now : Int} {live : Bool}

/-- A step that makes one quiet operation and keeps the snapshot. -/
theorem SessionSound.operating (sound : SessionSound env settings catalog session)
    (operation : Operation) (quiet : Operation.Quiet operation) {next : Option Phase}
    (follows : ∀ phase, next = some phase → CallSound env catalog
      (execute env settings session.queue operation).store (session.memory call.manager)
        call.manager phase) :
    SoundAdvance env settings catalog call.manager
      { queue := execute env settings session.queue operation
        snap := session.memory call.manager
        next := next } where
  reached := sound.reached.operate operation (permitted_of_quiet quiet)
  ofTable := sound.tables call.manager
  next := follows

variable (sound : SessionSound env settings catalog session)
  (pending : CallSound env catalog session.queue.store (session.memory call.manager) call.manager
    phase)
include sound pending

/-- The steps up to the first copied result. -/
theorem SessionSound.advance_before (outside : phase.inSection = false) :
    SoundAdvance env settings catalog call.manager (call.advance env settings
      (catalog.config call.manager) session.service now live phase) := by
  have ofTable := sound.tables call.manager
  cases phase with
  | generation =>
    simp only [Call.advance]
    split
    · refine ⟨sound.reached, ⟨?_, ofTable.label⟩, ?_⟩
      · exact (splitsOf_congr (rememberKeys_profile _)).trans ofTable.aligned
      · rintro phase ⟨⟩
        trivial
    · exact ⟨sound.reached, ofTable, fun phase went => by cases went⟩
  | create generation =>
    refine ⟨sound.reached.operate (.createRequest _) ?_, ofTable, ?_⟩
    · have covers : CoversSplits (splitsOf (catalog.fresh (session.memory call.manager).name).snap)
          (createCall (catalog.config call.manager) (session.memory call.manager) generation
            call.requestedKey now) := by
        rw [ofTable.name_eq, ← ofTable.aligned]
        simp only [CoversSplits, createCall, map_map]
        rfl
      exact covers
    · intro phase went
      obtain ⟨request, _, rfl⟩ := Option.map_eq_some_iff.mp went
      trivial
  | wait generation requestId =>
    refine sound.operating (.expireClaims now) trivial ?_
    rintro phase ⟨⟩
    trivial
  | poll generation requestId =>
    refine ⟨sound.reached, ofTable, ?_⟩
    intro phase went
    obtain ⟨request, stored, chosen⟩ := Option.bind_eq_some_iff.mp went
    split at chosen
    · cases chosen
      trivial
    · split at chosen
      · cases chosen
        refine ⟨fun other found => ?_, sound.reached.covering stored⟩
        rw [(sound.reached.owned.requestKey _ _ stored).1] at found
        exact congrArg RequestRecord.table (Option.some.inj (found.symm.trans stored))
      · cases chosen
  | lock generation terminal =>
    refine ⟨sound.reached, ofTable, ?_⟩
    rintro phase ⟨⟩
    split <;> exact pending
  | existing generation terminal =>
    refine ⟨sound.reached, ofTable, ?_⟩
    rintro phase ⟨⟩
    split
    · trivial
    · refine ⟨pending, fun same => ⟨[], _, rfl, ?_, rfl⟩⟩
      have covering := pending.covering
      rw [same, ← ofTable.aligned] at covering
      rw [covering.taskIds, splitsOf, map_map]
      rfl
  | pruneExisting generation terminal =>
    refine sound.operating (existingPruning _ _ _) trivial ?_
    rintro phase ⟨⟩
  | prune gathered =>
    refine sound.operating (.pruneStaging _ _ _) trivial ?_
    rintro phase ⟨⟩
  | _ => cases outside

/-- The steps from the first copied result to the publication. -/
theorem SessionSound.advance_section (inside : phase.inSection = true)
    (unbuilt : ∀ gathered, phase = .read gathered [] →
      (session.memory call.manager).manifestListBytes = none ∧
        (session.memory call.manager).manifestFileBytes = none) :
    SoundAdvance env settings catalog call.manager (call.advance env settings
      (catalog.config call.manager) session.service now live phase) := by
  have ofTable := sound.tables call.manager
  cases phase with
  | read gathered taskIds =>
    obtain ⟨current, copied⟩ := pending
    cases taskIds with
    | nil =>
      obtain ⟨noList, noFile⟩ := unbuilt gathered rfl
      simp only [Call.advance, catalog.iceberg, reduceCtorEq, if_false]
      refine ⟨sound.reached, ofTable, ?_⟩
      rintro phase ⟨⟩
      exact ⟨current, fun same => (copied same).complete, .start noList noFile⟩
    | cons taskId taskIds =>
      refine ⟨sound.reached, ofTable, ?_⟩
      intro phase went
      obtain ⟨record, stored, reporting⟩ := Option.bind_eq_some_iff.mp went
      obtain ⟨result, reported, rfl⟩ := Option.map_eq_some_iff.mp reporting
      refine ⟨current, fun same => ⟨copied same, ?_, fun objectKey output =>
        sound.reached.measured stored result objectKey reported output⟩⟩
      have member : taskId ∈ gathered.terminal.taskIds := by
        rw [current.covering.taskIds, same, ← ofTable.aligned]
        obtain ⟨before, after, shape, remaining, _⟩ := copied same
        obtain ⟨next, rest, rfl, rfl, _⟩ := map_eq_cons_iff.mp remaining
        rw [splitsOf, map_map, shape]
        exact mem_map_of_mem (mem_append_right _ mem_cons_self)
      exact (current.covering.task_of sound.reached.owned member stored).2
  | assign gathered taskId task result taskIds =>
    obtain ⟨current, ready⟩ := pending
    simp only [Call.advance]
    split
    · exact ⟨sound.reached, ofTable, fun phase went => by cases went⟩
    · next extended assigned copied =>
      obtain ⟨sameTerminal, _, _, _, _, _, _, _, shape⟩ := assignResult_some copied
      refine ⟨sound.reached, ⟨?_, ?_⟩, ?_⟩
      · exact (assignResult_splitsOf copied).trans ofTable.aligned
      · rw [shape]
        exact ofTable.label
      · rintro phase ⟨⟩
        refine ⟨by rw [sameTerminal]; exact current, fun same => ?_⟩
        rw [sameTerminal] at same
        obtain ⟨earlier, named, measured⟩ := ready same
        exact earlier.assign ofTable.distinct current.covering.hashed named measured copied
  | build gathered kinds =>
    obtain ⟨current, complete, written⟩ := pending
    cases kinds with
    | nil =>
      refine ⟨sound.reached, ofTable, ?_⟩
      rintro phase ⟨⟩
      exact ⟨current, complete, written⟩
    | cons kind kinds =>
      have kept := buildObject_keepsSplits (catalog.config call.manager).encodedLength
        (session.memory call.manager) kind
      refine ⟨sound.reached, ofTable.congr kept, ?_⟩
      rintro phase ⟨⟩
      refine ⟨current, fun same => ?_, ?_⟩
      · have earlier := complete same
        rw [Complete, ← kept.splits] at earlier
        exact earlier
      · obtain ⟨listKey, fileKey, hintKey⟩ := ofTable.keys_eq
        refine written.build ?_ ?_
        · rw [listKey, fileKey]
          exact catalog.listApart call.manager
        · rw [listKey, fileKey, hintKey]
          exact catalog.hintApart call.manager
  | put gathered key object kinds =>
    obtain ⟨current, complete, written⟩ := pending
    refine ⟨sound.reached.operate (.changeMetadata key object) trivial, ofTable, ?_⟩
    rintro phase ⟨⟩
    refine ⟨⟨current.table, current.covering⟩, complete, ?_⟩
    have stored : (fun other => (execute env settings session.queue
        (.changeMetadata key object)).store.metadata[other]?) =
          update (fun other => session.queue.store.metadata[other]?) key
            (some object) := by
      funext other
      simp only [execute, QueueState.perform_store, Store.apply, getElem?_assign,
        update_apply, eq_comm]
    simp only [Call.advance, Session.service]
    rw [stored]
    exact written
  | publish gathered =>
    simp only [Call.advance]
    split
    · refine ⟨sound.reached.operate (.publishSnapshot _ _ _) trivial, ofTable, ?_⟩
      rintro phase ⟨⟩
      trivial
    · exact ⟨sound.reached, ofTable, fun phase went => by cases went⟩
  | _ => cases inside

end Advance

/-! ## Whole sessions -/

theorem sound_of_start : SessionSound env settings catalog catalog.start where
  reached := .refl
  tables _ := ⟨rfl, rfl⟩
  call call phase pending := by cases pending

variable {session : Session}

section

variable (sound : SessionSound env settings catalog session)
include sound

/-- A turn of the current call keeps the invariant. -/
theorem SessionSound.step_advance {now : Int} {live : Bool}
    (first : session.buildsFirst (.advance now live) = true) :
    SessionSound env settings catalog (session.step env settings catalog (.advance now live)) := by
  cases pending : session.current with
  | none =>
    have same : session.step env settings catalog (.advance now live) = session := by
      simp only [Session.step, pending]
    rw [same]
    exact sound
  | some entry =>
    obtain ⟨call, phase⟩ := entry
    have holds := sound.call call phase pending
    have advanced : SoundAdvance env settings catalog call.manager (call.advance env settings
        (catalog.config call.manager) session.service now live phase) := by
      cases inside : phase.inSection with
      | false => exact sound.advance_before holds inside
      | true =>
        refine sound.advance_section holds inside ?_
        rintro gathered rfl
        simpa only [Session.buildsFirst, pending, Bool.and_eq_true, Option.isNone_iff_eq_none]
          using first
    simp only [Session.step, pending]
    refine ⟨advanced.reached, ?_, ?_⟩
    · exact (forall_update_iff session.memory fun table snap =>
        OfTable catalog table snap).mpr ⟨advanced.ofTable, fun table _ => sound.tables table⟩
    · intro other next continued
      obtain ⟨following, went, same⟩ := Option.map_eq_some_iff.mp continued
      obtain ⟨rfl, rfl⟩ := Prod.mk.inj same
      simp only [update_self]
      exact advanced.next _ went

/-- Every turn that builds nothing twice keeps the invariant. -/
theorem SessionSound.step (turn : Turn) (first : session.buildsFirst turn = true) :
    SessionSound env settings catalog (session.step env settings catalog turn) := by
  cases turn with
  | advance now live => exact sound.step_advance first
  | abandon => exact ⟨sound.reached, sound.tables, fun call phase pending => by cases pending⟩
  | call table requestedKey =>
    simp only [Session.step]
    split
    · exact sound
    · refine ⟨sound.reached, sound.tables, ?_⟩
      rintro call phase ⟨⟩
      trivial
  | queue operation =>
    simp only [Session.step]
    split
    · next outside =>
      have quiet := quiet_of_external outside
      refine ⟨sound.reached.operate operation (permitted_of_quiet quiet), sound.tables, ?_⟩
      intro call phase pending
      exact (sound.call call phase pending).mono
        (execute_undisturbed sound.reached.owned quiet)
    · exact sound

theorem SessionSound.run {turns : List Turn}
    (first : buildsFirstFrom env settings catalog session turns = true) :
    SessionSound env settings catalog
      (turns.foldl (.step env settings catalog) session) := by
  induction turns generalizing session with
  | nil => exact sound
  | cons turn rest ih =>
    rw [buildsFirstFrom, Bool.and_eq_true] at first
    exact ih (sound.step turn first.1) first.2

end

/-- The call whose publication a turn commits, and what the commit says of its
request. -/
theorem commits_some {turn : Turn} {manifest : SnapshotManifest}
    (committed : session.commits env catalog turn = some manifest) :
    ∃ now call gathered request, turn = .advance now true ∧
      session.current = some (call, .publish gathered) ∧
      manifest = manifestOf (catalog.config call.manager) (session.memory call.manager)
        gathered now ∧
      (publishSnapshot env gathered.terminal.requestId manifest now
        session.queue).1.toOption.isSome = true ∧
      session.queue.store.requests[gathered.terminal.requestId]? = some request ∧
      manifest.table = request.table := by
  cases turn with
  | advance now live =>
    simp only [Session.commits] at committed
    split at committed
    · next call gathered pending =>
      split at committed
      · next admitted =>
        obtain ⟨rfl, published⟩ := admitted
        cases committed
        have prepared := published
        unfold publishSnapshot at prepared
        split at prepared
        · cases prepared
        · next publication passed =>
          obtain ⟨request, _, _, publishable, _, _, _⟩ := preparePublication_ok passed
          obtain ⟨stored, _, identity⟩ := publishableRequest_ok publishable
          simp only [manifestMatches, decide_eq_true_eq] at identity
          exact ⟨now, call, gathered, request, rfl, pending, rfl, published, stored,
            identity.2.1⟩
      · cases committed
    · cases committed
  | _ => cases committed

/-- A commit leaves the metadata as its call has written it, and the published
splits are the gathered ones. -/
theorem SessionSound.commit (sound : SessionSound env settings catalog session) {turn : Turn}
    {manifest : SnapshotManifest} (committed : session.commits env catalog turn = some manifest) :
    ListsSplits (catalog.config manifest.table).encodedLength
      (session.step env settings catalog turn).queue.store (catalog.fresh manifest.table).snap
        manifest.splits := by
  obtain ⟨now, call, gathered, request, rfl, pending, rfl, published, stored, sameTable⟩ :=
    commits_some committed
  obtain ⟨current, complete, written⟩ := sound.call _ _ pending
  have ofTable := sound.tables call.manager
  have table : (manifestOf (catalog.config call.manager) (session.memory call.manager) gathered
      now).table = call.manager := ofTable.name_eq
  have ours : gathered.terminal.table = call.manager := by
    rw [← current.table request stored, ← sameTable, table]
  have lists := written.listsSplits (complete ours)
  have kept : (session.step env settings catalog (.advance now true)).queue.store.metadata =
      session.queue.store.metadata := by
    have advanced : (session.step env settings catalog (.advance now true)).queue =
        execute env settings session.queue (.publishSnapshot gathered.terminal.requestId
          (manifestOf (catalog.config call.manager) (session.memory call.manager) gathered now)
          now) := by
      simp only [Session.step, pending, Call.advance]
      rw [if_pos ⟨trivial, published⟩]
      rfl
    have quiet : Operation.Quiet (.publishSnapshot gathered.terminal.requestId
        (manifestOf (catalog.config call.manager) (session.memory call.manager) gathered now)
        now) := trivial
    rw [advanced]
    exact (execute_undisturbed sound.reached.owned quiet).metadata
  obtain ⟨listKey, fileKey, _⟩ := ofTable.keys_eq
  rw [table]
  refine ⟨?_, ?_⟩
  · rw [kept, ← fileKey]
    exact lists.manifestFile
  · rw [kept, ← fileKey, ← listKey]
    exact lists.manifestList

end Session

/-- Whatever calls a Manager handles one after another, as long as no table's
manifest is built a second time, every committed snapshot agrees with the stored
manifest of its table. -/
theorem committed_splits_listed (env : Environment) (settings : Settings) (catalog : Catalog)
    (turns : List Turn) (turn : Turn) (manifest : SnapshotManifest)
    (first : buildsFirstFrom env settings catalog catalog.start turns = true)
    (committed : (catalog.session env settings turns).commits env catalog turn = some manifest) :
    ListsSplits (catalog.config manifest.table).encodedLength
      (catalog.session env settings (turns ++ [turn])).queue.store
      (catalog.fresh manifest.table).snap manifest.splits := by
  have sound : SessionSound env settings catalog (catalog.session env settings turns) :=
    sound_of_start.run first
  rw [Catalog.session, foldl_append]
  exact sound.commit committed

/-! ## Two generations of one table -/

/-- The one split of a small table. -/
def singleSplit : SplitDescriptor where
  splitIndex := 0
  objectKey := "0"

/-- A Manager whose tables all have one split. -/
def icebergCatalog : Catalog where
  config _ := icebergConfig
  fresh table := {
    snap := { twoSplits.snap with name := table, splits := [singleSplit] }
    unbuilt := twoSplits.unbuilt
    unassigned := (by decide : ∀ split ∈ [singleSplit], split.canonicalObjectKey = none)
    distinct := List.nodup_singleton _ }
  iceberg _ := rfl
  named _ := rfl
  listApart _ := (by decide : twoSplits.snap.manifestListKey ≠ twoSplits.snap.manifestFileKey)
  hintApart _ := (by decide : twoSplits.snap.versionHintKey ≠ twoSplits.snap.manifestListKey ∧
    twoSplits.snap.versionHintKey ≠ twoSplits.snap.manifestFileKey)

/-- The request that a call makes under a generation. -/
def singleRequest (generationId : String) (fence : Int) : CreateCall :=
  createCall icebergConfig (icebergCatalog.fresh "t").snap (generationOf generationId fence) "t" 1000

/-- Its task. -/
def singleTask (generationId : String) (fence : Int) : MaterializeTask :=
  taskOf icebergConfig (icebergCatalog.fresh "t").snap (generationOf generationId fence) 1000
    singleSplit

/-- The output of its task. -/
def singleOutput (generationId : String) (fence : Int) : String :=
  firstOutputKey .transparent (singleRequest generationId fence) (singleTask generationId fence) "k"

/-- A call under a new generation makes its request, an Agent finishes the task,
and the call goes on until it is about to publish. -/
def publishing (generationId : String) (fence : Int) : List Turn :=
  [.queue (.changeCoordinator (some (toRecord (generationOf generationId fence)))), .call "t" "t",
    .advance 1000 true, .advance 1000 true] ++
  ((finishing .transparent (singleRequest generationId fence) (singleTask generationId fence) "k"
    [1]).drop 1).map .queue ++
  .replicate 16 (.advance 1000 true)

theorem committed_splits_listed_first_generation :
    ∃ manifest, (icebergCatalog.session .transparent (.clamped 120 3 5 60)
        (publishing "g" 1)).commits .transparent icebergCatalog (.advance 1000 true) =
          some manifest ∧
      ListsSplits (icebergCatalog.config manifest.table).encodedLength
        (icebergCatalog.session .transparent (.clamped 120 3 5 60)
          (publishing "g" 1 ++ [.advance 1000 true])).queue.store
        (icebergCatalog.fresh manifest.table).snap manifest.splits := by
  obtain ⟨commits, first⟩ : ((icebergCatalog.session .transparent (.clamped 120 3 5 60)
      (publishing "g" 1)).commits .transparent icebergCatalog (.advance 1000 true)).isSome = true ∧
      buildsFirstFrom .transparent (.clamped 120 3 5 60) icebergCatalog icebergCatalog.start
        (publishing "g" 1) = true := by decide +kernel
  obtain ⟨manifest, committed⟩ := Option.isSome_iff_exists.mp commits
  exact ⟨manifest, committed, committed_splits_listed .transparent (.clamped 120 3 5 60)
    icebergCatalog (publishing "g" 1) (.advance 1000 true) manifest first committed⟩

/-- The table is published under one generation, and then a call under the next
one is about to publish it again. -/
def republishing : List Turn :=
  publishing "g" 1 ++ [.advance 1000 true, .advance 1000 true] ++ publishing "h" 2

/-- The second publication commits the output of its own generation, but the
stored manifest file still lists that of the first. -/
theorem second_generation_not_listed :
    ∃ manifest, (icebergCatalog.session .transparent (.clamped 120 3 5 60)
        republishing).commits .transparent icebergCatalog (.advance 1000 true) = some manifest ∧
      manifest.splits.map SplitRef.objectKey = [singleOutput "h" 2] ∧
      ((icebergCatalog.session .transparent (.clamped 120 3 5 60) (republishing ++
        [.advance 1000 true])).queue.store.metadata["f"]?.map fun object =>
          object.files.map DataFile.objectKey) = some [singleOutput "g" 1] ∧
      ¬ ListsSplits (icebergCatalog.config manifest.table).encodedLength
        (icebergCatalog.session .transparent (.clamped 120 3 5 60)
          (republishing ++ [.advance 1000 true])).queue.store
        (icebergCatalog.fresh manifest.table).snap manifest.splits := by
  have published : ((icebergCatalog.session .transparent (.clamped 120 3 5 60) republishing).commits
      .transparent icebergCatalog (.advance 1000 true)).map
        (fun manifest => manifest.splits.map SplitRef.objectKey) = some [singleOutput "h" 2] := by
    decide +kernel
  obtain ⟨manifest, committed, outputs⟩ := Option.map_eq_some_iff.mp published
  refine ⟨manifest, committed, outputs, (and_iff_left_of_imp fun stale lists => ?_).mpr
    (by decide +kernel)⟩
  have file : (icebergCatalog.fresh manifest.table).snap.manifestFileKey = "f" := rfl
  have fresh := lists.manifestFile
  rw [file] at fresh
  rw [fresh, Option.map_some, MetadataObject.files, map_map] at stale
  have keys : manifest.splits.map (DataFile.objectKey ∘ listed) =
      manifest.splits.map SplitRef.objectKey := rfl
  rw [keys, outputs] at stale
  have differ : singleOutput "h" 2 ≠ singleOutput "g" 1 := by decide +kernel
  exact differ (head_eq_of_cons_eq (Option.some.inj stale))

end ShortcutProxy.MaterializeService
