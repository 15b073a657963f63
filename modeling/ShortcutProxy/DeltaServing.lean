import ShortcutProxy.DeltaLog

/-!
# The Delta log that clients see

A client of a Delta table lists the `_delta_log` and reads its commits, and takes a
commit it has seen for immutable. The proxy remembers the commits in memory, appends to
them as versions are registered, and drops them whenever the table is materialized: a
browse of the bucket may have built a commit while the splits had no sizes, and the next
read is to build it again with the true ones.

A proxy that serves on its own answers from its memory, and in a deferred mode first
materializes the table that a request selects. Behind a Manager the clients read what the
Manager has written to the shared store, and the Manager materializes a table on demand,
itself or through the queue. A Manager neither polls nor refreshes.

`shown_commit_stays` says that a commit stays as it was shown until its table is
materialized again.
-/

namespace ShortcutProxy.DeltaServing

open DeltaLog PathText TableConfig TableMetadata List Function

/-! ## The process -/

/-- A configured table, with the keys that `build_table_snapshot` gives to its objects. -/
structure TableSetup where
  name : String
  schema : List ColumnDef
  tablePath : String
  legacyTablePath : String
  snapshotId : Int
  watermarkMs : Int
  dataKeys : List String
  metadataKeys : List String
  deriving DecidableEq

structure Deployment where
  /-- `TABLES`. -/
  tables : List TableSetup
  /-- `MATERIALIZE_MODE` is lazy or virtual. -/
  deferred : Bool
  /-- Clients read the store that a Manager fills. -/
  managed : Bool
  autoRefresh : Bool
  snapshotHistory : Bool
  /-- `SNAPSHOT_HISTORY_LIMIT`. -/
  historyLimit : Nat
  /-- The id that `advance_table_snapshot` takes from a path and a version. -/
  versionId : String → Int → Int

/-- A registered table and its retained versions, oldest first. -/
structure DeltaTable where
  setup : TableSetup
  history : List SnapshotVersion

/-- The registry, the remembered logs, and the commits in the shared store. -/
structure ServerState where
  tables : List DeltaTable
  logs : String → TableLog := fun _ => {}
  published : String → List Commit := fun _ => []

/-- `build_table_snapshot`: one version, whose splits have no sizes. -/
def buildTableSnapshot (setup : TableSetup) : DeltaTable where
  setup := setup
  history :=
    [{ version := 1
       snapshotId := setup.snapshotId
       watermarkMs := setup.watermarkMs
       tableName := setup.name
       schema := setup.schema
       tablePath := setup.tablePath
       splits := setup.dataKeys.zipIdx.map fun entry =>
         { splitIndex := entry.2, objectKey := entry.1 } }]

/-- The registered table of a name. -/
def ServerState.table? (state : ServerState) (name : String) : Option DeltaTable :=
  state.tables.find? fun table => table.setup.name = name

/-- A change of the versions of one table. -/
def ServerState.mapTable (state : ServerState) (name : String)
    (change : SnapshotVersion → SnapshotVersion) : ServerState :=
  { state with
    tables := state.tables.map fun table =>
      if table.setup.name = name then { table with history := table.history.map change }
      else table }

/-! ## Logs -/

/-- `sync_all`, as `delta_log_objects` does it for every registered table. -/
def syncLogs (tables : List DeltaTable) (logs : String → TableLog) : String → TableLog :=
  tables.foldl (fun logs table =>
    Function.update logs table.setup.name (sync (logs table.setup.name) table.history)) logs

def ServerState.sync (state : ServerState) : ServerState :=
  { state with logs := syncLogs state.tables state.logs }

/-- `invalidate_table`. -/
def ServerState.invalidateTable (state : ServerState) (name : String) : ServerState :=
  { state with logs := Function.update state.logs name {} }

/-! ## Materialization -/

/-- `_is_materialized`. -/
def isMaterialized (snap : SnapshotVersion) : Bool :=
  !snap.splits.isEmpty && snap.splits.all fun split => split.fileSizeInBytes.isSome

/-- The oldest retained version of the table has splits without a size. -/
def ServerState.pending (state : ServerState) (name : String) : Bool :=
  match (state.table? name).bind fun table => table.history.head? with
  | none => false
  | some oldest => !isMaterialized oldest

/-- What reading the source gives for each split: the size and the rows of its file. -/
abbrev Outcome := List (Option (Int × Int))

/-- The splits with the sizes of the files that were written. -/
def fillSplits (outcome : Outcome) (snap : SnapshotVersion) : SnapshotVersion :=
  { snap with
    splits := snap.splits.mapIdx fun index split =>
      match outcome[index]?.join with
      | some (size, records) =>
        { split with fileSizeInBytes := some size, recordCount := some records }
      | none => split }

/-- Every split of the table's oldest version was written. -/
def ServerState.written (state : ServerState) (name : String) (outcome : Outcome) : Bool :=
  match (state.table? name).bind fun table => table.history.head? with
  | none => true
  | some oldest => (List.range oldest.splits.length).all fun index =>
    (outcome[index]?.join).isSome

/-- `ensure_snapshot_materialized`; the versions of a table share their splits. After a
failure the splits that were written keep their sizes, and the log is not dropped. -/
def ensureMaterialized (outcome : Outcome) (state : ServerState) (name : String) :
    Bool × ServerState :=
  if state.pending name then
    let filled := state.mapTable name (fillSplits outcome)
    if state.written name outcome then (true, filled.invalidateTable name) else (false, filled)
  else (true, state)

/-- The tables one after another, up to the first failure. -/
def ensureAll (outcomes : String → Outcome) : ServerState → List String → Bool × ServerState
  | state, [] => (true, state)
  | state, name :: rest =>
    match ensureMaterialized (outcomes name) state name with
    | (true, state) => ensureAll outcomes state rest
    | (false, state) => (false, state)

section Requests

variable (deployment : Deployment) (state : ServerState)

/-- The tables that `_ensure_lazy_materialized_for_prefix` selects. -/
def selectedByPrefix (keyPrefix : String) : List String :=
  if deployment.managed || !deployment.deferred || keyPrefix = "" then []
  else
    (state.tables.filter fun table => startsWith table.setup.tablePath keyPrefix ||
      startsWith table.setup.legacyTablePath keyPrefix).map fun table => table.setup.name

/-- The table that `_ensure_lazy_materialized` selects: by a metadata key, by a data key,
or by the path of its log. -/
def selectedByKey (key : String) : List String :=
  if deployment.managed || !deployment.deferred then []
  else
    let byMetadata := state.tables.find? fun table => table.setup.metadataKeys.contains key
    let byData := state.tables.find? fun table => table.history.any fun snap =>
      snap.splits.any fun split =>
        split.objectKey = key || split.canonicalObjectKey = some key
    let byLog := state.tables.find? fun table =>
      startsWith (table.setup.tablePath ++ "/_delta_log/") key
    ((byMetadata.or (byData.or byLog)).map fun table => table.setup.name).toList

/-- A commit as a client is shown it. -/
structure Shown where
  table : String
  number : Nat
  commit : Commit
  deriving DecidableEq

/-- The commits of a table whose keys a request asks for. -/
def shownCommits (wanted : String → Bool) (setup : TableSetup) (commits : List Commit) :
    List Shown :=
  (commits.zipIdx.filter fun entry => wanted (logKey setup.tablePath entry.2)).map fun entry =>
    { table := setup.name, number := entry.2, commit := entry.1 }

/-- What `delta_log_objects`, or behind a Manager the store, has of the wanted keys. -/
def shownBy (wanted : String → Bool) : List Shown :=
  if deployment.managed then
    deployment.tables.flatMap fun setup => shownCommits wanted setup (state.published setup.name)
  else
    state.tables.flatMap fun table =>
      shownCommits wanted table.setup (state.logs table.setup.name).commits

/-- Materialize what the request selects, bring the log up to date, and answer. -/
def serve (outcomes : String → Outcome) (selected : List String)
    (wanted : String → Bool) : List Shown × ServerState :=
  match ensureAll outcomes state selected with
  | (true, state) =>
    let state := if deployment.managed then state else state.sync
    (shownBy deployment state wanted, state)
  | (false, state) => ([], state)

/-- A key below the log of a table. -/
def isLogKey (key : String) : Bool := containsText "/_delta_log/" key

/-- `advance_table_snapshot`. -/
def advanceTable (table : DeltaTable) : DeltaTable :=
  match table.history.getLast? with
  | none => table
  | some latest =>
    let version := latest.version + 1
    { table with
      history := table.history ++ [{ latest with
        version := version
        snapshotId := deployment.versionId table.setup.tablePath version
        watermarkMs := latest.watermarkMs + 1000 * version }] }

/-- Advance the configured tables in order; an unregistered one is a `KeyError`. -/
def advanceTables : List DeltaTable → List TableSetup → List DeltaTable
  | tables, [] => tables
  | tables, setup :: rest =>
    if tables.any fun table => table.setup.name = setup.name then
      advanceTables (tables.map fun table =>
        if table.setup.name = setup.name then advanceTable deployment table else table) rest
    else tables

/-- `refresh_snapshot` without automatic refresh. -/
def refreshSnapshot : ServerState :=
  if deployment.snapshotHistory then
    { state with tables := advanceTables deployment state.tables deployment.tables }
  else { state with tables := deployment.tables.map buildTableSnapshot }

/-- `publish`: a candidate with other content becomes the next version. -/
def publish (setup : TableSetup) (candidate : SnapshotVersion) :
    ServerState :=
  match state.table? setup.name with
  | none => { state with
      tables := state.tables ++ [{ setup, history := [{ candidate with version := 1 }] }] }
  | some table =>
    match table.history.getLast? with
    | some prior =>
      if candidate.snapshotId = prior.snapshotId then state
      else { state with
        tables := state.tables.map fun other =>
          if other.setup.name = setup.name then
            { other with
              history := (registerSnapshot deployment.historyLimit
                { history := other.history }
                { candidate with version := prior.version + 1 }).history }
          else other }
    | none => state

/-- A queue result: where the file of a split was staged, its size and its rows. -/
structure QueueResult where
  outputKey : String
  size : Int
  records : Int

/-- The splits as the results of a generation describe them. -/
def stageSplits (results : List QueueResult) (snap : SnapshotVersion) : SnapshotVersion :=
  { snap with
    splits := snap.splits.mapIdx fun index split =>
      match results[index]? with
      | some result =>
        { split with
          objectKey := result.outputKey
          fileSizeInBytes := some result.size
          recordCount := some result.records }
      | none => split }

/-- `_publish_snapshot_objects`: the commits of the table go to the store. A Manager's
table has one version, so its one commit is overwritten. -/
def publishObjects (name : String) : ServerState :=
  let state := state.sync
  { state with published := Function.update state.published name (state.logs name).commits }

/-- What can happen. A request carries what materializing a table would give now. -/
inductive Event where
  | list (keyPrefix : String) (outcomes : String → Outcome)
  | head (key : String) (outcomes : String → Outcome)
  | get (key : String) (outcomes : String → Outcome)
  | refresh
  | publish (setup : TableSetup) (candidate : SnapshotVersion)
  | direct (name : String) (outcome : Outcome)
  | queue (name : String) (results : List QueueResult)

/-- What a client is shown by an event, and the state after it. -/
def handle : Event → List Shown × ServerState
  | .list keyPrefix outcomes =>
    serve deployment state outcomes (selectedByPrefix deployment state keyPrefix)
      (startsWith keyPrefix)
  | .head key outcomes =>
    serve deployment state outcomes (selectedByKey deployment state key) (· == key)
  | .get key outcomes =>
    if isLogKey key then
      serve deployment state outcomes (selectedByKey deployment state key) (· == key)
    else ([], (ensureAll outcomes state (selectedByKey deployment state key)).2)
  | .refresh =>
    ([], if deployment.managed || deployment.autoRefresh then state
      else refreshSnapshot deployment state)
  | .publish setup candidate =>
    ([], if deployment.managed || !deployment.tables.contains setup then state
      else publish deployment state setup candidate)
  | .direct name outcome =>
    if deployment.managed then
      match ensureMaterialized outcome state name with
      | (true, state) => ([], publishObjects state name)
      | (false, state) => ([], state)
    else ([], state)
  | .queue name results =>
    ([], if deployment.managed then
      publishObjects ((state.mapTable name (stageSplits results)).invalidateTable name) name
    else state)

/-- The state after a sequence of events. -/
def run (events : List Event) : ServerState :=
  events.foldl (fun state event => (handle deployment state event).2) state

/-- The event materializes the table: a request of a deferred mode that selects it while
its splits have no sizes, or a materialization by the Manager. -/
def materializes (name : String) : Event → Bool
  | .list keyPrefix _ =>
    (selectedByPrefix deployment state keyPrefix).contains name && state.pending name
  | .head key _ | .get key _ =>
    (selectedByKey deployment state key).contains name && state.pending name
  | .refresh | .publish .. => false
  | .direct other _ => other = name && state.pending name
  | .queue other _ => other = name

end Requests

/-! ## What stays -/

section Extension

variable {deployment : Deployment} {name : String} {before after last state : ServerState}

/-- Everything visible of the table stays, and the table stays registered. -/
structure Extends (name : String) (before after : ServerState) : Prop where
  logs : (before.logs name).commits <+: (after.logs name).commits
  published : before.published name <+: after.published name
  registered : (before.table? name).isSome = true → (after.table? name).isSome = true

theorem Extends.refl (name : String) (state : ServerState) : Extends name state state :=
  ⟨prefix_refl _, prefix_refl _, id⟩

theorem Extends.trans (first : Extends name before after) (second : Extends name after last) :
    Extends name before last :=
  ⟨first.logs.trans second.logs, first.published.trans second.published,
    fun registered => second.registered (first.registered registered)⟩

theorem register_commits_extend (log : TableLog) (snap : SnapshotVersion) :
    log.commits <+: (register log snap).commits := by
  unfold register
  split
  · exact prefix_refl _
  split
  · rename_i empty
    rw [empty]
    exact nil_prefix
  split
  · exact prefix_refl _
  · exact prefix_append _ _

theorem sync_commits_extend (log : TableLog) (history : List SnapshotVersion) :
    log.commits <+: (sync log history).commits := by
  induction history generalizing log with
  | nil => exact prefix_refl _
  | cons snap rest ih =>
    rw [sync_cons]
    exact (register_commits_extend log snap).trans (ih _)

theorem syncLogs_commits_extend (tables : List DeltaTable) (logs : String → TableLog)
    (name : String) : (logs name).commits <+: (syncLogs tables logs name).commits := by
  induction tables generalizing logs with
  | nil => exact prefix_refl _
  | cons table rest ih =>
    refine List.IsPrefix.trans ?_ (ih _)
    dsimp only
    by_cases same : name = table.setup.name
    · subst same
      rw [update_self]
      exact sync_commits_extend _ _
    · rw [update_of_ne same]

theorem extends_sync (name : String) (state : ServerState) : Extends name state state.sync :=
  ⟨syncLogs_commits_extend state.tables state.logs name, prefix_refl _, id⟩

variable {other : String}

theorem table?_mapTable_of_ne (apart : name ≠ other)
    (change : SnapshotVersion → SnapshotVersion) :
    (state.mapTable other change).table? name = state.table? name := by
  have kept : ∀ table : DeltaTable, (if table.setup.name = other then
      { table with history := table.history.map change } else table).setup.name =
        table.setup.name := fun table => by split <;> rfl
  simp only [ServerState.table?, ServerState.mapTable, find?_map, comp_def, kept]
  cases found : state.tables.find? fun table => table.setup.name = name with
  | none => rfl
  | some table =>
    have named : table.setup.name = name := by simpa using find?_some found
    simp [named, apart]

/-- Materializing another table, or one that has its sizes, leaves this one alone. -/
theorem ensureMaterialized_frame (outcome : Outcome)
    (quiet : other = name → state.pending name = false) :
    (ensureMaterialized outcome state other).2.logs name = state.logs name ∧
    (ensureMaterialized outcome state other).2.published = state.published ∧
    (ensureMaterialized outcome state other).2.table? name = state.table? name := by
  unfold ensureMaterialized
  by_cases same : other = name
  · subst same
    simp [quiet rfl]
  · have apart : name ≠ other := fun equal => same equal.symm
    have table := @table?_mapTable_of_ne name state other apart (fillSplits outcome)
    split
    · dsimp only
      split
      · exact ⟨update_of_ne apart _ _, rfl, table⟩
      · exact ⟨rfl, rfl, table⟩
    · exact ⟨rfl, rfl, rfl⟩

theorem extends_ensureMaterialized (outcome : Outcome)
    (quiet : other = name → state.pending name = false) :
    Extends name state (ensureMaterialized outcome state other).2 := by
  obtain ⟨logs, published, table⟩ := @ensureMaterialized_frame name state other outcome quiet
  refine ⟨?_, ?_, ?_⟩
  · rw [logs]
  · rw [published]
  · rw [table]
    exact id

variable {selected : List String}

theorem extends_ensureAll (outcomes : String → Outcome)
    (quiet : name ∈ selected → state.pending name = false) :
    Extends name state (ensureAll outcomes state selected).2 := by
  induction selected generalizing state with
  | nil => exact .refl name state
  | cons other rest ih =>
    have quietOther : other = name → state.pending name = false :=
      fun same => quiet (by simp [same])
    have step := @extends_ensureMaterialized name state other (outcomes other) quietOther
    have frame := @ensureMaterialized_frame name state other (outcomes other) quietOther
    unfold ensureAll
    split
    · rename_i next done
      rw [done] at step frame
      refine step.trans (ih fun member => ?_)
      rw [ServerState.pending, frame.2.2, ← ServerState.pending]
      exact quiet (mem_cons_of_mem other member)
    · rename_i next failed
      rw [failed] at step
      exact step

theorem isSome_table?_iff {state : ServerState} :
    (state.table? name).isSome = true ↔ ∃ table ∈ state.tables, table.setup.name = name := by
  simp [ServerState.table?, find?_isSome]

/-- A change of the registry in which no name is lost. -/
theorem extends_of_names {tables : List DeltaTable}
    (kept : ∀ table ∈ state.tables, table.setup.name = name →
      ∃ other ∈ tables, other.setup.name = name) :
    Extends name state { state with tables } := by
  refine ⟨prefix_refl _, prefix_refl _, fun registered => ?_⟩
  obtain ⟨table, member, isNamed⟩ := isSome_table?_iff.mp registered
  exact isSome_table?_iff.mpr (kept table member isNamed)

/-! ### The invariant -/

/-- Every registered table is configured, and behind a Manager the store has nothing that
the log does not have. -/
structure Sound (deployment : Deployment) (state : ServerState) : Prop where
  configured : ∀ table ∈ state.tables, table.setup ∈ deployment.tables
  published : deployment.managed = true → ∀ name,
    state.published name <+: (state.logs name).commits

/-- A process that has just started: nothing is remembered and nothing is published. -/
structure Started (deployment : Deployment) (state : ServerState) : Prop where
  configured : ∀ table ∈ state.tables, table.setup ∈ deployment.tables
  logs : ∀ name, state.logs name = {}
  published : ∀ name, state.published name = []

theorem Started.sound (started : Started deployment state) : Sound deployment state where
  configured := started.configured
  published _ name := by
    rw [started.published]
    exact nil_prefix

theorem setup_advanceTable (table : DeltaTable) :
    (advanceTable deployment table).setup = table.setup := by
  unfold advanceTable
  split <;> rfl

theorem setup_mapTable {change : SnapshotVersion → SnapshotVersion}
    {table : DeltaTable} (member : table ∈ (state.mapTable other change).tables) :
    ∃ old ∈ state.tables, table.setup = old.setup := by
  obtain ⟨old, wasMember, rfl⟩ := mem_map.mp member
  refine ⟨old, wasMember, ?_⟩
  split <;> rfl

theorem setup_advanceTables (setups : List TableSetup) (tables : List DeltaTable) :
    (advanceTables deployment tables setups).map DeltaTable.setup =
      tables.map DeltaTable.setup := by
  induction setups generalizing tables with
  | nil => rfl
  | cons setup rest ih =>
    unfold advanceTables
    split
    · refine (ih _).trans ?_
      rw [map_map]
      refine map_congr_left fun table _ => ?_
      simp only [comp_apply]
      split
      · exact setup_advanceTable table
      · rfl
    · rfl

theorem configured_ensureMaterialized (outcome : Outcome) (other : String)
    (configured : ∀ table ∈ state.tables, table.setup ∈ deployment.tables) :
    ∀ table ∈ (ensureMaterialized outcome state other).2.tables,
      table.setup ∈ deployment.tables := by
  have mapped : ∀ table ∈ (state.mapTable other (fillSplits outcome)).tables,
      table.setup ∈ deployment.tables := by
    intro table member
    obtain ⟨old, wasMember, same⟩ := setup_mapTable member
    rw [same]
    exact configured old wasMember
  unfold ensureMaterialized
  split
  · dsimp only
    split
    · exact mapped
    · exact mapped
  · exact configured

theorem configured_ensureAll (outcomes : String → Outcome) (selected : List String)
    (configured : ∀ table ∈ state.tables, table.setup ∈ deployment.tables) :
    ∀ table ∈ (ensureAll outcomes state selected).2.tables,
      table.setup ∈ deployment.tables := by
  induction selected generalizing state with
  | nil => exact configured
  | cons other rest ih =>
    have step := configured_ensureMaterialized (outcomes other) other configured
    unfold ensureAll
    split
    · rename_i next done
      rw [done] at step
      exact ih step
    · rename_i next failed
      rw [failed] at step
      exact step

/-- Publishing a table leaves the store with what the logs have. -/
theorem published_publishObjects
    (kept : ∀ name ≠ other, state.published name <+: (state.logs name).commits) (name : String) :
    (publishObjects state other).published name <+:
      ((publishObjects state other).logs name).commits := by
  have synced := syncLogs_commits_extend state.tables state.logs name
  by_cases same : name = other
  · subst same
    simp [publishObjects]
  · simp only [publishObjects, ServerState.sync, update_of_ne same]
    exact (kept name same).trans synced

theorem extends_publishObjects
    (kept : name = other → state.published name <+: (state.logs name).commits) :
    Extends name state (publishObjects state other) := by
  have synced := syncLogs_commits_extend state.tables state.logs name
  refine ⟨synced, ?_, id⟩
  by_cases same : name = other
  · subst same
    simp only [publishObjects, ServerState.sync, update_self]
    exact (kept rfl).trans synced
  · simp [publishObjects, ServerState.sync, update_of_ne same]

/-! ### One event -/

/-- A request that serves the log: what it selects is materialized, and a process on its
own brings the log up to date. -/
theorem serve_snd (outcomes : String → Outcome) (selected : List String) (wanted : String → Bool) :
    (serve deployment state outcomes selected wanted).2 =
        (ensureAll outcomes state selected).2 ∨
    deployment.managed = false ∧ (serve deployment state outcomes selected wanted).2 =
      (ensureAll outcomes state selected).2.sync := by
  unfold serve
  split
  · rename_i next done
    rw [done]
    dsimp only
    cases deployment.managed with
    | true | false => simp
  · rename_i next failed
    rw [failed]
    exact .inl rfl

theorem extends_serve (outcomes : String → Outcome)
    (wanted : String → Bool) (quiet : name ∈ selected → state.pending name = false) :
    Extends name state (serve deployment state outcomes selected wanted).2 := by
  have materialized := @extends_ensureAll name state selected outcomes quiet
  rcases @serve_snd deployment state outcomes selected wanted with same | ⟨_, same⟩
  · rw [same]
    exact materialized
  · rw [same]
    exact materialized.trans (extends_sync name _)

/-- Behind a Manager a request selects nothing. -/
theorem sound_serve (sound : Sound deployment state) (outcomes : String → Outcome)
    (wanted : String → Bool)
    (none : deployment.managed = true → selected = []) :
    Sound deployment (serve deployment state outcomes selected wanted).2 := by
  have configured := configured_ensureAll outcomes selected sound.configured
  rcases @serve_snd deployment state outcomes selected wanted with same | ⟨alone, same⟩
  · rw [same]
    refine ⟨configured, fun managed => ?_⟩
    rw [none managed]
    exact sound.published managed
  · rw [same]
    refine ⟨configured, fun managed => ?_⟩
    rw [alone] at managed
    cases managed

theorem selectedByKey_managed (managed : deployment.managed = true) (key : String) :
    selectedByKey deployment state key = [] := by
  simp [selectedByKey, managed]

theorem configured_refreshSnapshot (sound : Sound deployment state) :
    ∀ table ∈ (refreshSnapshot deployment state).tables, table.setup ∈ deployment.tables := by
  intro table member
  unfold refreshSnapshot at member
  split at member
  · have isSetup : table.setup ∈ state.tables.map DeltaTable.setup := by
      rw [← setup_advanceTables deployment.tables state.tables]
      exact mem_map_of_mem member
    obtain ⟨old, wasMember, same⟩ := mem_map.mp isSetup
    rw [← same]
    exact sound.configured old wasMember
  · obtain ⟨setup, configured, rfl⟩ := mem_map.mp member
    exact configured

theorem extends_refreshSnapshot (sound : Sound deployment state) :
    Extends name state (refreshSnapshot deployment state) := by
  unfold refreshSnapshot
  split
  · refine extends_of_names fun table member isNamed => ?_
    have isSetup : table.setup ∈
        (advanceTables deployment state.tables deployment.tables).map DeltaTable.setup := by
      rw [setup_advanceTables]
      exact mem_map_of_mem member
    obtain ⟨other, otherMember, same⟩ := mem_map.mp isSetup
    exact ⟨other, otherMember, by rw [same, isNamed]⟩
  · refine extends_of_names fun table member isNamed => ?_
    exact ⟨buildTableSnapshot table.setup, mem_map_of_mem (sound.configured table member),
      isNamed⟩

theorem publish_tables (setup : TableSetup) (candidate : SnapshotVersion) :
    ∃ tables, publish deployment state setup candidate = { state with tables } ∧
      (∀ table ∈ tables, table.setup = setup ∨ ∃ old ∈ state.tables, table.setup = old.setup) ∧
      ∀ table ∈ state.tables, ∃ other ∈ tables, other.setup = table.setup := by
  unfold publish
  split
  · refine ⟨_, rfl, ?_, fun table member => ⟨table, mem_append_left _ member, rfl⟩⟩
    intro table member
    rcases mem_append.mp member with old | new
    · exact .inr ⟨table, old, rfl⟩
    · obtain rfl := mem_singleton.mp new
      exact .inl rfl
  · have same : ∀ table ∈ state.tables, ∃ other ∈ state.tables, other.setup = table.setup :=
      fun table member => ⟨table, member, rfl⟩
    split
    · split
      · exact ⟨state.tables, rfl, fun table member => .inr ⟨table, member, rfl⟩, same⟩
      · refine ⟨_, rfl, ?_, ?_⟩
        · intro table member
          obtain ⟨old, wasMember, rfl⟩ := mem_map.mp member
          refine .inr ⟨old, wasMember, ?_⟩
          split <;> rfl
        · intro table member
          refine ⟨_, mem_map_of_mem member, ?_⟩
          split <;> rfl
    · exact ⟨state.tables, rfl, fun table member => .inr ⟨table, member, rfl⟩, same⟩

/-- What an event leaves: the invariant, and what is visible of the tables that it does not
materialize. -/
structure Leaves (deployment : Deployment) (state : ServerState) (event : Event)
    (after : ServerState) : Prop where
  sound : Sound deployment after
  kept : ∀ name, materializes deployment state name event = false → Extends name state after

theorem Sound.leaves (sound : Sound deployment state) (event : Event) :
    Leaves deployment state event state :=
  ⟨sound, fun name _ => .refl name state⟩

theorem Sound.handle (sound : Sound deployment state) (event : Event) :
    Leaves deployment state event (handle deployment state event).2 := by
  cases event with
  | list keyPrefix outcomes =>
    refine ⟨sound_serve sound outcomes _ fun managed => by simp [selectedByPrefix, managed],
      fun name quiet => extends_serve outcomes _ fun selected => ?_⟩
    simpa [materializes, selected] using quiet
  | head key outcomes =>
    refine ⟨sound_serve sound outcomes _ fun managed => selectedByKey_managed managed key,
      fun name quiet => extends_serve outcomes _ fun selected => ?_⟩
    simpa [materializes, selected] using quiet
  | get key outcomes =>
    have unselected : ∀ name, materializes deployment state name (.get key outcomes) = false →
        name ∈ selectedByKey deployment state key → state.pending name = false :=
      fun name quiet selected => by simpa [materializes, selected] using quiet
    unfold DeltaServing.handle
    dsimp only
    split
    · exact ⟨sound_serve sound outcomes _ fun managed => selectedByKey_managed managed key,
        fun name quiet => extends_serve outcomes _ (unselected name quiet)⟩
    · refine ⟨⟨configured_ensureAll outcomes _ sound.configured, fun managed => ?_⟩,
        fun name quiet => extends_ensureAll outcomes (unselected name quiet)⟩
      rw [selectedByKey_managed managed]
      exact sound.published managed
  | refresh =>
    unfold DeltaServing.handle
    dsimp only
    split
    · exact sound.leaves _
    · rename_i alone
      refine ⟨⟨configured_refreshSnapshot sound, fun managed => ?_⟩,
        fun name _ => extends_refreshSnapshot sound⟩
      simp [managed] at alone
  | publish setup candidate =>
    unfold DeltaServing.handle
    dsimp only
    split
    · exact sound.leaves _
    · rename_i allowed
      obtain ⟨notManaged, isConfigured⟩ :
          deployment.managed = false ∧ setup ∈ deployment.tables := by
        simpa using allowed
      obtain ⟨tables, published, origin, kept⟩ := @publish_tables deployment state setup candidate
      rw [published]
      refine ⟨⟨?_, fun managed => ?_⟩, fun name _ => extends_of_names fun table member isNamed => ?_⟩
      · intro table member
        rcases origin table member with same | ⟨old, wasMember, same⟩
        · rw [same]
          exact isConfigured
        · rw [same]
          exact sound.configured old wasMember
      · rw [notManaged] at managed
        cases managed
      · obtain ⟨other, otherMember, same⟩ := kept table member
        exact ⟨other, otherMember, by rw [same, isNamed]⟩
  | direct other outcome =>
    have configured := configured_ensureMaterialized outcome other sound.configured
    have frame := fun name (quiet : other = name → state.pending name = false) =>
      @ensureMaterialized_frame name state other outcome quiet
    have steps := fun name (quiet : materializes deployment state name (.direct other outcome) =
        false) => @extends_ensureMaterialized name state other outcome
      fun same => by simpa [materializes, same] using quiet
    unfold DeltaServing.handle
    dsimp only
    split
    · rename_i managed
      split
      · rename_i next done
        rw [done] at configured frame steps
        refine ⟨⟨configured, fun _ => published_publishObjects fun name apart => ?_⟩,
          fun name quiet => (steps name quiet).trans (extends_publishObjects fun same => ?_)⟩
        · have framed := frame name fun same => absurd same.symm apart
          rw [framed.1, framed.2.1]
          exact sound.published managed name
        · have framed := frame name fun _ => by simpa [materializes, same] using quiet
          rw [framed.1, framed.2.1]
          exact sound.published managed name
      · rename_i next failed
        rw [failed] at configured steps
        refine ⟨⟨configured, fun _ name => ?_⟩, steps⟩
        have unchanged : next.logs = state.logs ∧ next.published = state.published := by
          unfold ensureMaterialized at failed
          split at failed
          · dsimp only at failed
            split at failed
            · cases failed
            · obtain ⟨_, rfl⟩ := Prod.mk.inj failed
              exact ⟨rfl, rfl⟩
          · cases failed
        rw [unchanged.1, unchanged.2]
        exact sound.published managed name
    · exact sound.leaves _
  | queue other results =>
    unfold DeltaServing.handle
    dsimp only
    split
    · rename_i managed
      refine ⟨⟨?_, fun _ => published_publishObjects fun name apart => ?_⟩, fun name quiet => ?_⟩
      · intro table member
        obtain ⟨old, wasMember, same⟩ :=
          @setup_mapTable state other (stageSplits results) table member
        rw [same]
        exact sound.configured old wasMember
      · simp only [ServerState.invalidateTable, update_of_ne apart]
        exact sound.published managed name
      · have apart : name ≠ other := by
          intro same
          simp [materializes, same] at quiet
        have invalidated : Extends name state
            ((state.mapTable other (stageSplits results)).invalidateTable other) := by
          refine ⟨?_, prefix_refl _, fun registered => ?_⟩
          · simp [ServerState.invalidateTable, ServerState.mapTable, update_of_ne apart]
          · have same := @table?_mapTable_of_ne name state other apart (stageSplits results)
            exact same ▸ registered
        exact invalidated.trans (extends_publishObjects fun same => absurd same apart)
    · exact sound.leaves _

/-! ### Runs -/

theorem Sound.run (sound : Sound deployment state) (events : List Event) :
    Sound deployment (run deployment state events) := by
  induction events generalizing state with
  | nil => exact sound
  | cons event rest ih => exact ih (sound.handle event).sound

end Extension

def ordersSetup : TableSetup where
  name := "t"
  schema := []
  tablePath := "w/t"
  legacyTablePath := "w/t"
  snapshotId := 7
  watermarkMs := 0
  dataKeys := ["w/t/a"]
  metadataKeys := []

/-- A process that serves the table on its own. -/
def ordersDeployment (deferred : Bool) : Deployment where
  tables := [ordersSetup]
  deferred := deferred
  managed := false
  autoRefresh := !deferred
  snapshotHistory := false
  historyLimit := 5
  versionId _ version := version

end ShortcutProxy.DeltaServing
