import ShortcutProxy.DiffLog
import ShortcutProxy.PathText
import ShortcutProxy.TableConfig
import ShortcutProxy.TableMetadata

/-!
# The Delta log of a table

In Delta mode the proxy serves a `_delta_log` beside the data files. Each registered
snapshot version becomes a commit: the first one creates the table and adds its files,
a later one adds and removes what differs from the version before, and a version without
a difference makes no commit. `delta/log.py` remembers the commits, the files of the last
committed version and its number, and brings them up to date before every listing and
every read.

The log of one table is modelled; the dictionaries of the source are keyed by table and
the operations on one table touch its own entries only. A commit is the list of its
actions rather than their JSON text.
-/

namespace ShortcutProxy.DeltaLog

open DiffLog PathText TableConfig TableMetadata List

/-! ## Versions and commits -/

/-- `_rel_path`. -/
def relPath (objectKey tablePath : String) : String :=
  let root := tablePath ++ "/"
  if startsWith root objectKey then dropChars root.length objectKey else objectKey

/-- A snapshot version, as the log reads it. -/
structure SnapshotVersion where
  version : Int
  snapshotId : Int
  watermarkMs : Int
  tableName : String
  schema : List ColumnDef
  tablePath : String
  splits : List SplitDescriptor
  deriving DecidableEq

/-- A data file in the log: its path relative to the table, its size and its rows. -/
structure LogFile where
  path : String
  size : Int
  records : Int
  deriving DecidableEq, Repr

/-- The files of a version; a split without a size counts as empty. -/
def SnapshotVersion.files (snap : SnapshotVersion) : List LogFile :=
  snap.splits.map fun split =>
    { path := relPath split.objectKey snap.tablePath
      size := split.fileSizeInBytes.getD 0
      records := split.recordCount.getD 0 }

/-- An action of a commit. -/
inductive Action where
  | commitInfo (timestamp : Int) (operation : String)
  | protocol (minReaderVersion minWriterVersion : Nat)
  | metaData (name : String) (schema : List ColumnDef) (createdTime : Int)
  | add (path : String) (size records modificationTime : Int)
  | remove (path : String) (size deletionTimestamp : Int)
  deriving DecidableEq

abbrev Commit := List Action

/-- `_add_action`. -/
def addAction (timestamp : Int) (file : LogFile) : Action :=
  .add file.path file.size file.records timestamp

/-- `_remove_action`. -/
def removeAction (timestamp : Int) (file : LogFile) : Action :=
  .remove file.path file.size timestamp

/-- The commit that creates the table. -/
def createCommit (snap : SnapshotVersion) : Commit :=
  [.commitInfo snap.watermarkMs "CREATE TABLE", .protocol 1 2,
    .metaData snap.tableName snap.schema snap.watermarkMs] ++
  snap.files.map (addAction snap.watermarkMs)

/-- The files whose paths another list does not have. -/
def unlisted (files others : List LogFile) : List LogFile :=
  files.filter fun file => file.path ∉ others.map LogFile.path

/-- The actions that lead from the last committed files to those of a version. -/
def diffActions (previous : List LogFile) (snap : SnapshotVersion) : List Action :=
  (unlisted snap.files previous).map (addAction snap.watermarkMs) ++
  (unlisted previous snap.files).map (removeAction snap.watermarkMs)

/-! ## The log -/

/-- What is remembered of a table: `_commits`, `_prev_files` and `_committed_version`. -/
structure TableLog where
  commits : List Commit := []
  prevFiles : List LogFile := []
  committedVersion : Int := 0
  deriving DecidableEq

/-- `_register`. -/
def register (log : TableLog) (snap : SnapshotVersion) : TableLog :=
  if snap.version ≤ log.committedVersion then log
  else if log.commits = [] then
    { commits := [createCommit snap]
      prevFiles := snap.files
      committedVersion := snap.version }
  else
    match diffActions log.prevFiles snap with
    | [] => { log with committedVersion := snap.version }
    | actions =>
      { commits := log.commits ++ [.commitInfo snap.watermarkMs "WRITE" :: actions]
        prevFiles := snap.files
        committedVersion := snap.version }

/-- `_sync`. -/
def sync (log : TableLog) (history : List SnapshotVersion) : TableLog :=
  history.foldl (fun log snap =>
    if log.committedVersion < snap.version then register log snap else log) log

/-- `_log_key`: the number is padded to twenty digits. -/
def logKey (tablePath : String) (number : Nat) : String :=
  let digits := toString number
  tablePath ++ "/_delta_log/" ++ .ofList (.replicate (20 - digits.length) '0') ++
    digits ++ ".json"

/-- The commits as `delta_log_objects` lists them. -/
def commitObjects (tablePath : String) (log : TableLog) : List (String × Commit) :=
  log.commits.zipIdx.map fun entry => (logKey tablePath entry.2, entry.1)

/-! ## The registry of one table -/

/-- The retained versions of a table, oldest first, and its log. -/
structure TableState where
  history : List SnapshotVersion := []
  log : TableLog := {}

/-- `register_snapshot`: the versions beyond the limit are pruned, but never the last. -/
def registerSnapshot (limit : Nat) (state : TableState) (snap : SnapshotVersion) : TableState :=
  let history := state.history ++ [snap]
  { state with history := history.drop (history.length - max 1 limit) }

/-- Drop some of the oldest versions. -/
def prune (count : Nat) (state : TableState) : TableState :=
  { state with history := state.history.drop count }

/-- A listing or a read brings the log up to date. -/
def synced (state : TableState) : TableState :=
  { state with log := sync state.log state.history }

/-! ## Replay -/

/-- What an action does to the files of a table. -/
def Action.change : Action → Option (Change String (Int × Int))
  | .add path size records _ => some (.put path (size, records))
  | .remove path _ _ => some (.drop path)
  | .commitInfo .. | .protocol .. | .metaData .. => none

/-- The files that a reader has after replaying commits, with their sizes and rows. -/
def replayed (commits : List Commit) : String → Option (Int × Int) :=
  replay (fun _ => none) (commits.flatten.filterMap Action.change)

/-- Files as named values. -/
def entriesOf (files : List LogFile) : List (String × (Int × Int)) :=
  files.map fun file => (file.path, file.size, file.records)

/-- The files of a version by path. -/
def SnapshotVersion.contents (snap : SnapshotVersion) : String → Option (Int × Int) :=
  contentsOf (entriesOf snap.files)

/-- No two files of a version have the same path: the key of a data file has the index of
its split. -/
def SnapshotVersion.Distinct (snap : SnapshotVersion) : Prop :=
  (snap.splits.map fun split => relPath split.objectKey snap.tablePath).Nodup

/-- A later version comes after an earlier one: a path in both keeps its size and rows. -/
structure Follows (earlier later : SnapshotVersion) : Prop where
  version : earlier.version < later.version
  agree : Agree (entriesOf earlier.files) (entriesOf later.files)

theorem names_entriesOf (files : List LogFile) :
    names (entriesOf files) = files.map LogFile.path := by
  simp [names, entriesOf]

variable {snap : SnapshotVersion} {log : TableLog} {last : Option SnapshotVersion}
  {old rest : List SnapshotVersion} {state : TableState}

theorem SnapshotVersion.Distinct.nodup_names (distinct : snap.Distinct) :
    (names (entriesOf snap.files)).Nodup := by
  rw [names_entriesOf]
  simpa [SnapshotVersion.files, SnapshotVersion.Distinct, Function.comp_def] using distinct

theorem entriesOf_unlisted (files others : List LogFile) :
    entriesOf (unlisted files others) = without (entriesOf files) (entriesOf others) := by
  simp [entriesOf, unlisted, without, names, filter_map, Function.comp_def]

theorem filterMap_change_add (timestamp : Int) (files : List LogFile) :
    (files.map (addAction timestamp)).filterMap Action.change =
      (entriesOf files).map fun entry => .put entry.1 entry.2 := by
  simp [entriesOf, addAction, Action.change, filterMap_map, Function.comp_def]

theorem filterMap_change_remove (timestamp : Int) (files : List LogFile) :
    (files.map (removeAction timestamp)).filterMap Action.change =
      (entriesOf files).map fun entry => .drop entry.1 := by
  simp [entriesOf, removeAction, Action.change, filterMap_map, Function.comp_def]

/-- The actions of a commit are the difference between two versions. -/
theorem filterMap_change_diffActions (previous : List LogFile) (snap : SnapshotVersion) :
    (diffActions previous snap).filterMap Action.change =
      diff (entriesOf previous) (entriesOf snap.files) := by
  unfold diffActions diff
  rw [filterMap_append, filterMap_change_add, filterMap_change_remove, entriesOf_unlisted,
    entriesOf_unlisted]

theorem replayed_append (commits : List Commit) (commit : Commit) :
    replayed (commits ++ [commit]) = replay (replayed commits) (commit.filterMap Action.change) := by
  simp [replayed, replay_append]

/-- No path is both added and removed. -/
def Commit.Coherent (commit : Commit) : Prop :=
  ∀ path size records modified, .add path size records modified ∈ commit →
    ∀ oldSize deleted, .remove path oldSize deleted ∉ commit

/-! ### One registration -/

/-- The log has recorded this version. -/
structure Records (log : TableLog) (snap : SnapshotVersion) : Prop where
  version : log.committedVersion = snap.version
  created : log.commits ≠ []
  files : contentsOf (entriesOf log.prevFiles) = snap.contents
  replays : replayed log.commits = snap.contents

theorem register_first (distinct : snap.Distinct) (positive : 0 < snap.version) :
    Records (register {} snap) snap := by
  have registered : register {} snap =
      { commits := [createCommit snap], prevFiles := snap.files,
        committedVersion := snap.version } := by
    simp [register, positive]
  rw [registered]
  refine ⟨rfl, by simp, rfl, ?_⟩
  have created : (createCommit snap).filterMap Action.change =
      diff [] (entriesOf snap.files) := by
    have all : without (entriesOf snap.files) [] = entriesOf snap.files := by
      simp [without, names]
    unfold createCommit diff
    rw [filterMap_append, filterMap_change_add, all]
    simp [Action.change, without]
  have empty : Agree [] (entriesOf snap.files) := by
    intro path before after was
    simp [contentsOf] at was
  have start := replayed_append [] (createCommit snap)
  rw [created] at start
  exact start.trans (replay_diff distinct.nodup_names empty)

theorem register_next {earlier later : SnapshotVersion} (records : Records log earlier)
    (distinct : later.Distinct) (follows : Follows earlier later) :
    Records (register log later) later := by
  have notYet : ¬ later.version ≤ log.committedVersion := by
    have newer := follows.version
    rw [records.version]
    omega
  have agree : Agree (entriesOf log.prevFiles) (entriesOf later.files) := by
    intro path before after was stays
    rw [records.files] at was
    exact follows.agree path before after was stays
  have replays : replay (replayed log.commits)
      ((diffActions log.prevFiles later).filterMap Action.change) = later.contents := by
    rw [filterMap_change_diffActions, records.replays, ← records.files]
    exact replay_diff distinct.nodup_names agree
  unfold register
  rw [if_neg notYet, if_neg records.created]
  split
  · -- Nothing differs, so the old contents are the new ones.
    rename_i same
    rw [same] at replays
    have sameContents : replayed log.commits = later.contents := replays
    refine ⟨rfl, records.created, ?_, sameContents⟩
    exact (records.files.trans records.replays.symm).trans sameContents
  · refine ⟨rfl, by simp, rfl, ?_⟩
    rw [replayed_append]
    exact replays

theorem coherent_of_filterMap {commit : Commit} {old new : List (String × (Int × Int))}
    (changes : commit.filterMap Action.change = diff old new) : commit.Coherent := by
  intro path size records modified added oldSize deleted removed
  have isPut : .put path (size, records) ∈ commit.filterMap Action.change :=
    mem_filterMap.mpr ⟨_, added, rfl⟩
  have isDropped : .drop path ∈ commit.filterMap Action.change :=
    mem_filterMap.mpr ⟨_, removed, rfl⟩
  rw [changes] at isPut isDropped
  exact not_put_and_drop_of_diff isPut isDropped

/-- A registration adds coherent commits only. -/
theorem register_coherent (coherent : ∀ commit ∈ log.commits, commit.Coherent)
    (snap : SnapshotVersion) : ∀ commit ∈ (register log snap).commits, commit.Coherent := by
  unfold register
  split
  · exact coherent
  split
  · intro commit member
    obtain rfl := mem_singleton.mp member
    intro path size records modified _ oldSize deleted removed
    simp [createCommit, addAction] at removed
  · split
    · exact coherent
    · intro commit member
      rcases mem_append.mp member with earlier | newest
      · exact coherent commit earlier
      · obtain rfl := mem_singleton.mp newest
        refine coherent_of_filterMap (.trans ?_ (filterMap_change_diffActions log.prevFiles snap))
        rfl

/-! ### Synchronization -/

/-- The version that may be registered after a last one. -/
def Next : Option SnapshotVersion → SnapshotVersion → Prop
  | none, snap => snap.Distinct ∧ 0 < snap.version
  | some last, snap => snap.Distinct ∧ Follows last snap

/-- The versions follow each other, the first one the given version. -/
def ChainFrom : Option SnapshotVersion → List SnapshotVersion → Prop
  | _, [] => True
  | last, snap :: rest => Next last snap ∧ ChainFrom (some snap) rest

/-- The last version that the log has recorded. -/
def LastRecorded : Option SnapshotVersion → TableLog → Prop
  | none, log => log = {}
  | some snap, log => Records log snap

theorem committedVersion_lt_of_next (recorded : LastRecorded last log) (next : Next last snap) :
    log.committedVersion < snap.version := by
  cases last with
  | none =>
    obtain rfl : log = {} := recorded
    exact next.2
  | some earlier =>
    have version := Records.version recorded
    rw [version]
    exact next.2.version

theorem records_register (recorded : LastRecorded last log) (next : Next last snap) :
    Records (register log snap) snap := by
  cases last with
  | none =>
    obtain rfl : log = {} := recorded
    exact register_first next.1 next.2
  | some earlier => exact register_next recorded next.1 next.2

theorem register_of_le (done : snap.version ≤ log.committedVersion) : register log snap = log := by
  rw [register, if_pos done]

/-- The check in `_sync` is also made by `_register`. -/
theorem sync_cons (log : TableLog) (snap : SnapshotVersion) (rest : List SnapshotVersion) :
    sync log (snap :: rest) = sync (register log snap) rest := by
  by_cases newer : log.committedVersion < snap.version
  · simp [sync, newer]
  · rw [register_of_le (Int.not_lt.mp newer)]
    simp [sync, newer]

/-- The last of a list, or else the element before it. -/
theorem getLast?_cons_or (snap : SnapshotVersion) (rest : List SnapshotVersion)
    (last : Option SnapshotVersion) :
    (snap :: rest).getLast?.or last = rest.getLast?.or (some snap) := by
  cases rest with
  | nil => rfl
  | cons other others =>
    rw [getLast?_cons_cons, getLast?_cons]
    rfl

theorem sync_old (done : ∀ snap ∈ old, snap.version ≤ log.committedVersion) :
    sync log old = log := by
  induction old with
  | nil => rfl
  | cons snap rest ih =>
    rw [sync_cons, register_of_le (done snap mem_cons_self)]
    exact ih fun other member => done other (mem_cons_of_mem snap member)

theorem sync_chain (recorded : LastRecorded last log) (chain : ChainFrom last rest) :
    LastRecorded (rest.getLast?.or last) (sync log rest) := by
  induction rest generalizing last log with
  | nil => exact recorded
  | cons snap rest ih =>
    obtain ⟨next, chainRest⟩ := chain
    rw [sync_cons, getLast?_cons_or]
    exact ih (records_register recorded next) chainRest

theorem sync_coherent (coherent : ∀ commit ∈ log.commits, commit.Coherent)
    (history : List SnapshotVersion) : ∀ commit ∈ (sync log history).commits, commit.Coherent := by
  induction history generalizing log with
  | nil => exact coherent
  | cons snap rest ih =>
    rw [sync_cons]
    exact ih (register_coherent coherent snap)

/-! ### Runs -/

/-- The states of a table: versions are registered in order, each with distinct paths and
with a path that stays keeping its size and rows; listings and reads bring the log up to date; and versions are
pruned only once the log has recorded them. -/
inductive Reachable : TableState → Prop
  | start : Reachable {}
  | register {state : TableState} (reachable : Reachable state) (limit : Nat)
      (snap : SnapshotVersion) (next : Next state.history.getLast? snap)
      (recorded : ∀ old ∈ (state.history ++ [snap]).take (state.history.length + 1 - max 1 limit),
        old.version ≤ state.log.committedVersion) :
      Reachable (registerSnapshot limit state snap)
  | sync {state : TableState} (reachable : Reachable state) : Reachable (synced state)
  | prune {state : TableState} (reachable : Reachable state) (count : Nat)
      (keeps : count < state.history.length)
      (recorded : ∀ old ∈ state.history.take count, old.version ≤ state.log.committedVersion) :
      Reachable (prune count state)

/-- The log is behind the history by a chain of versions. -/
structure Behind (state : TableState) (last : Option SnapshotVersion)
    (old rest : List SnapshotVersion) : Prop where
  history : state.history = old ++ rest
  done : ∀ snap ∈ old, snap.version ≤ state.log.committedVersion
  recorded : LastRecorded last state.log
  chain : ChainFrom last rest
  latest : rest = [] → old.getLast? = last

theorem Behind.getLast? (behind : Behind state last old rest) :
    state.history.getLast? = rest.getLast?.or last := by
  rw [behind.history, getLast?_append]
  cases rest with
  | nil => simp [behind.latest rfl]
  | cons snap others => rw [getLast?_cons_or, getLast?_cons_or]

theorem chainFrom_append (chain : ChainFrom last rest) (next : Next (rest.getLast?.or last) snap) :
    ChainFrom last (rest ++ [snap]) := by
  induction rest generalizing last with
  | nil => exact ⟨next, trivial⟩
  | cons head tail ih =>
    rw [getLast?_cons_or] at next
    exact ⟨chain.1, ih chain.2 next⟩

/-- Registering a version puts it at the end of the chain. -/
theorem Behind.append (behind : Behind state last old rest)
    (next : Next state.history.getLast? snap) :
    Behind { state with history := state.history ++ [snap] } last old (rest ++ [snap]) where
  history := by simp [behind.history]
  done := behind.done
  recorded := behind.recorded
  chain := chainFrom_append behind.chain (behind.getLast? ▸ next)
  latest empty := by simp at empty

/-- Pruning takes from the recorded versions, since the others are newer than the log. -/
theorem Behind.prune (behind : Behind state last old rest) {count : Nat}
    (keeps : count < state.history.length)
    (recorded : ∀ snap ∈ state.history.take count, snap.version ≤ state.log.committedVersion) :
    Behind (prune count state) last (old.drop count) rest := by
  have within : count ≤ old.length := by
    by_contra beyond
    cases rest with
    | nil =>
      rw [behind.history, append_nil] at keeps
      omega
    | cons snap others =>
      have taken : snap ∈ state.history.take count := by
        rw [behind.history, take_append]
        refine mem_append_right _ ?_
        obtain ⟨extra, isExtra⟩ : ∃ extra, count - old.length = extra + 1 :=
          ⟨count - old.length - 1, by omega⟩
        rw [isExtra, take_succ_cons]
        exact mem_cons_self
      have newer := committedVersion_lt_of_next behind.recorded behind.chain.1
      exact absurd (recorded snap taken) (Int.not_le.mpr newer)
  refine ⟨?_, ?_, behind.recorded, behind.chain, ?_⟩
  · simp only [DeltaLog.prune, behind.history]
    exact drop_append_of_le_length within
  · exact fun snap member => behind.done snap (mem_of_mem_drop member)
  · intro empty
    rw [← behind.latest empty, getLast?_drop, if_neg]
    rw [behind.history, empty, append_nil] at keeps
    omega

theorem Behind.sync {state : TableState} {last : Option SnapshotVersion}
    {old rest : List SnapshotVersion} (behind : Behind state last old rest) :
    LastRecorded state.history.getLast? (synced state).log := by
  have log : (synced state).log = DeltaLog.sync state.log rest := by
    unfold synced
    rw [behind.history]
    refine .trans foldl_append ?_
    exact congrArg (DeltaLog.sync · rest) (sync_old behind.done)
  rw [log, behind.getLast?]
  exact sync_chain behind.recorded behind.chain

theorem register_committedVersion (log : TableLog) (snap : SnapshotVersion) :
    (register log snap).committedVersion = max log.committedVersion snap.version := by
  unfold register
  split
  · omega
  split
  · simp only
    omega
  · split <;> simp only <;> omega

theorem committedVersion_le_sync (log : TableLog) (history : List SnapshotVersion) :
    log.committedVersion ≤ (sync log history).committedVersion := by
  induction history generalizing log with
  | nil => exact Int.le_refl _
  | cons snap rest ih =>
    have further := ih (register log snap)
    rw [register_committedVersion] at further
    rw [sync_cons]
    omega

/-- A synchronized log is as far as every version. -/
theorem version_le_sync (log : TableLog) (history : List SnapshotVersion) :
    ∀ snap ∈ history, snap.version ≤ (sync log history).committedVersion := by
  induction history generalizing log with
  | nil => simp
  | cons head rest ih =>
    intro snap member
    rw [sync_cons]
    rcases mem_cons.mp member with rfl | later
    · have further := committedVersion_le_sync (register log snap) rest
      rw [register_committedVersion] at further
      omega
    · exact ih (register log head) snap later

theorem registerSnapshot_eq_prune (limit : Nat) (state : TableState) (snap : SnapshotVersion) :
    registerSnapshot limit state snap =
      prune (state.history.length + 1 - max 1 limit)
        { state with history := state.history ++ [snap] } := by
  simp [registerSnapshot, prune]

/-- In every reachable state the log is behind by a chain, and its commits are coherent. -/
theorem Reachable.behind (reachable : Reachable state) :
    (∃ last old rest, Behind state last old rest) ∧
    ∀ commit ∈ state.log.commits, commit.Coherent := by
  induction reachable with
  | start => exact ⟨⟨none, [], [], ⟨rfl, by simp, rfl, trivial, fun _ => rfl⟩⟩, by simp⟩
  | @register state _ limit snap next recorded ih =>
    obtain ⟨⟨last, old, rest, behind⟩, coherent⟩ := ih
    rw [registerSnapshot_eq_prune]
    refine ⟨⟨last, _, _, (behind.append next).prune ?_ recorded⟩, coherent⟩
    simp only [length_append, length_singleton]
    omega
  | @sync state _ ih =>
    obtain ⟨⟨last, old, rest, behind⟩, coherent⟩ := ih
    refine ⟨⟨state.history.getLast?, state.history, [], ?_⟩, sync_coherent coherent state.history⟩
    exact ⟨by simp [synced], version_le_sync state.log state.history, behind.sync, trivial,
      fun _ => rfl⟩
  | prune _ count keeps recorded ih =>
    obtain ⟨⟨last, old, rest, behind⟩, coherent⟩ := ih
    exact ⟨⟨last, _, rest, behind.prune keeps recorded⟩, coherent⟩

/-- Whenever the log of a table is listed or read: replaying the commits gives exactly the
files of the highest registered version with their sizes and rows, no commit adds and
removes the same path, and the commits are numbered from zero without a gap. -/
theorem served_log_replays {state : TableState} (reachable : Reachable state)
    {current : SnapshotVersion} (isLast : state.history.getLast? = some current) :
    (∀ snap ∈ state.history, snap.version ≤ current.version) ∧
    replayed ((commitObjects current.tablePath (synced state).log).map Prod.snd) =
      current.contents ∧
    (∀ object ∈ commitObjects current.tablePath (synced state).log, object.2.Coherent) ∧
    (commitObjects current.tablePath (synced state).log).map Prod.fst =
      (List.range (synced state).log.commits.length).map (logKey current.tablePath) := by
  have commits : (commitObjects current.tablePath (synced state).log).map Prod.snd =
      (synced state).log.commits := by
    simp [commitObjects, Function.comp_def]
  obtain ⟨⟨last, old, rest, behind⟩, _⟩ := reachable.behind
  have records : LastRecorded (some current) (synced state).log := isLast ▸ behind.sync
  refine ⟨?_, ?_, ?_, ?_⟩
  · rw [← Records.version records]
    exact version_le_sync state.log state.history
  · rw [commits]
    exact Records.replays records
  · intro object listed
    have member : object.2 ∈ (synced state).log.commits := by
      rw [← commits]
      exact mem_map_of_mem listed
    exact (Reachable.sync reachable).behind.2 object.2 member
  · rw [range_eq_range', ← zipIdx_map_snd 0 (synced state).log.commits, map_map]
    exact map_map

/-! ### A version replaced and pruned -/

/-- A version of a table with one data file. -/
def singleFile (version : Int) (name : String) (size : Int) : SnapshotVersion where
  version := version
  snapshotId := version
  watermarkMs := 0
  tableName := "t"
  schema := []
  tablePath := "t"
  splits := [{ splitIndex := 0, objectKey := "t/" ++ name, recordCount := some 1,
               fileSizeInBytes := some size }]

/-- The second version has another file, and its registration prunes the first. -/
def replacedState : TableState :=
  registerSnapshot 1 (synced (registerSnapshot 1 {} (singleFile 1 "a" 3))) (singleFile 2 "b" 4)

theorem singleFile_distinct (version : Int) (name : String) (size : Int) :
    (singleFile version name size).Distinct := by
  simp [SnapshotVersion.Distinct, singleFile]

theorem replacedState_reachable : Reachable replacedState := by
  have created := Reachable.register .start 1 (singleFile 1 "a" 3)
    ⟨singleFile_distinct 1 "a" 3, by decide⟩ (by simp)
  have agree : Agree (entriesOf (singleFile 1 "a" 3).files)
      (entriesOf (singleFile 2 "b" 4).files) := by
    have first : entriesOf (singleFile 1 "a" 3).files = [("a", (3, 1))] := by decide +kernel
    have second : entriesOf (singleFile 2 "b" 4).files = [("b", (4, 1))] := by decide +kernel
    rw [first, second]
    intro path before after was stays
    have isA : path = "a" := by simpa [names] using mem_names_of_contentsOf was
    have isB : path = "b" := by simpa [names] using mem_names_of_contentsOf stays
    exact absurd (isA.symm.trans isB) (by decide)
  refine .register (.sync created) 1 _
    ⟨singleFile_distinct 2 "b" 4, by decide, agree⟩ ?_
  decide +kernel

theorem served_log_replays_replaced :
    (commitObjects "t" (synced replacedState).log).length = 2 ∧
    replayed ((commitObjects "t" (synced replacedState).log).map Prod.snd) =
      (singleFile 2 "b" 4).contents := by
  refine ⟨by decide +kernel, ?_⟩
  exact (@served_log_replays _ replacedState_reachable (singleFile 2 "b" 4) rfl).2.1

end ShortcutProxy.DeltaLog
