import ShortcutProxy.LruCache
import ShortcutProxy.PathText
import ShortcutProxy.TableConfig
import ShortcutProxy.TableMetadata

/-!
# Serving an eagerly materialized warehouse

At startup the proxy builds a snapshot of each table, materializes every split and pins
the Parquet bytes. From then on it answers GET, HEAD and LIST out of the snapshots, the
pinned bytes and two caches, and an operator may ask for a refresh.

What a manifest declares of a data file comes from the split descriptor; what GET returns
comes from the pinned bytes, then the Parquet cache, the disk cache and the artifact
store, and at last from the source. A refresh with snapshot history adds a version over
the same splits; one without builds every snapshot anew.

One Agent serves all splits. The bytes of a metadata object are kept as what they say.
-/

namespace ShortcutProxy.EagerServing

open LruCache PathText TableConfig TableMetadata

/-! ## The deployment -/

/-- A Parquet file: its bytes, and the row count in its footer. -/
structure ParquetFile where
  rowCount : Nat
  bytes : List UInt8
  deriving DecidableEq, Repr

def ParquetFile.size (file : ParquetFile) : Nat := file.bytes.length

/-- What the digest of a seed gives: `snap_id` and `snap_uuid`. -/
structure SnapshotIds where
  snapshotId : Int
  uuid : String

/-- What the configuration fixes, with the digests and the encoders. -/
structure Deployment where
  settings : Settings
  /-- `TABLES`. -/
  tables : List TableDef
  bucket : String
  /-- `ICEBERG_SNAPSHOT_HISTORY`. -/
  snapshotHistory : Bool := false
  quarantineFailedTables : Bool := true
  /-- `CONCURRENT_STARTUP_MATERIALIZATION`. -/
  concurrentStartup : Bool := true
  parquetDiskCache : Bool := false
  artifactStoreServing : Bool := false
  metadataCacheTtl : Nat
  parquetCacheTtl : Nat
  parquetCacheMaxBytes : Nat
  /-- The layout is canonical, and legacy paths are aliases of it. -/
  legacyAliases : Bool := false
  /-- `_warehouse_alias_enabled`. -/
  warehouseAlias : Bool := false
  activeTablePath : TableDef → String
  legacyTablePath : TableDef → String
  digest : String → SnapshotIds
  sha256 : ParquetFile → String
  md5 : ParquetFile → String
  encodedLength : MetadataObject → Nat

/-! ## Snapshots -/

/-- The registered versions of a table. They share their paths and their splits. -/
structure ServedTable where
  name : String
  tablePath : String
  legacyTablePath : String
  /-- `_snapshots[name]`, which is also the last entry of `_history[name]`. -/
  current : SnapshotState
  earlier : List SnapshotState := []

/-- `_history[name]`. -/
def ServedTable.versions (table : ServedTable) : List SnapshotState :=
  table.earlier ++ [table.current]

/-- The name of a strategy in a seed. -/
def strategyName : SplitStrategy → String
  | .modulo => "modulo"
  | .range => "range"
  | .date => "date"
  | .auto => "auto"

section Build

variable (deployment : Deployment) (table : TableDef)

/-- The seed that every identifier of a table's first snapshot is derived from. -/
def snapshotSeed : String :=
  deployment.bucket ++ "/" ++ deployment.activeTablePath table ++
    "|source=" ++ table.sourceTable ++
    "|key=" ++ table.keyColumn.getD "" ++
    "|splits=" ++ toString table.numSplits ++
    "|strategy=" ++ strategyName (table.effectiveSplitStrategy deployment.settings) ++
    "|target=" ++ toString (table.effectiveSplitTargetRows deployment.settings)

/-- The key of a data file. -/
def dataKey (index : Nat) : String :=
  deployment.activeTablePath table ++ "/data/split-" ++ toString index ++ "-" ++
    toString (deployment.digest (snapshotSeed deployment table)).snapshotId ++ ".parquet"

/-- The keys of a table's data files. -/
def dataKeys : List String :=
  (List.range table.numSplits.toNat).map (dataKey deployment table)

/-- The splits of a new snapshot: none has a size yet. -/
def newSplits : List SplitDescriptor :=
  (List.range table.numSplits.toNat).map fun index : Nat =>
    { splitIndex := index, objectKey := dataKey deployment table index }

/-- `build_table_snapshot`. -/
def buildTableSnapshot : ServedTable :=
  let path := deployment.activeTablePath table
  let ids := deployment.digest (snapshotSeed deployment table)
  { name := table.name
    tablePath := path
    legacyTablePath := deployment.legacyTablePath table
    current :=
      { name := table.name
        tablePath := path
        snapshotId := ids.snapshotId
        manifestListKey := path ++ "/metadata/snap-" ++ toString ids.snapshotId ++ "-1-" ++
          ids.uuid ++ ".avro"
        manifestFileKey := path ++ "/metadata/" ++ ids.uuid ++ "-m0" ++ ".avro"
        metadataKey := path ++ "/metadata/v1.metadata" ++ ".json"
        versionHintKey := path ++ "/metadata/version-hint" ++ ".text"
        splits := newSplits deployment table } }

end Build

/-- `build_all_snapshots`; the names of the configured tables are distinct. -/
def buildAllSnapshots (deployment : Deployment) (tables : List TableDef) : List ServedTable :=
  tables.map (buildTableSnapshot deployment)

/-- `advance_table_snapshot`: a new version over the same splits. -/
def advanceTableSnapshot (deployment : Deployment) (table : ServedTable) : ServedTable :=
  let latest := table.current
  let path := table.tablePath
  let version := latest.version + 1
  let ids := deployment.digest (deployment.bucket ++ "/" ++ path ++ "/v" ++ toString version)
  let sequenceNumber := latest.sequenceNumber + 1
  { table with
    earlier := table.versions
    current :=
      { name := table.name
        tablePath := path
        version := version
        snapshotId := ids.snapshotId
        sequenceNumber := sequenceNumber
        manifestListKey := path ++ "/metadata/snap-" ++ toString ids.snapshotId ++ "-" ++
          toString sequenceNumber ++ "-" ++ ids.uuid ++ ".avro"
        manifestFileKey := path ++ "/metadata/" ++ ids.uuid ++ "-m" ++ toString version ++ ".avro"
        metadataKey := path ++ "/metadata/v" ++ toString version ++ ".metadata" ++ ".json"
        versionHintKey := latest.versionHintKey
        splits := latest.splits
        totalRecords := latest.totalRecords } }

/-! ## Caches -/

/-- The state of the process. -/
structure ServerState where
  tables : List ServedTable
  metadataCache : Cache String MetadataObject
  parquetCache : Cache String ParquetFile
  pinned : String → Option ParquetFile
  disk : String → Option ParquetFile
  store : String → Option ParquetFile

section Caches

variable (deployment : Deployment) (state : ServerState) (now : Nat) (key : String)

/-- `_disk_read`, then `_store_read`. -/
def durableRead : Option ParquetFile :=
  match if deployment.parquetDiskCache then state.disk key else none with
  | some file => some file
  | none => if deployment.artifactStoreServing then state.store key else none

/-- `_disk_write` and `_store_write`. -/
def durableWrite (file : ParquetFile) : ServerState :=
  { state with
    disk := if deployment.parquetDiskCache then Function.update state.disk key (some file)
      else state.disk
    store := if deployment.artifactStoreServing then Function.update state.store key (some file)
      else state.store }

/-- `_parquet_cache.put`. -/
def promote (file : ParquetFile) : ServerState :=
  { state with parquetCache := state.parquetCache.put ParquetFile.size now key file }

/-- `get_parquet`: pinned, cached, on disk, in the store. -/
def getParquet : Option ParquetFile × ServerState :=
  match state.pinned key with
  | some file => (some file, state)
  | none =>
    let (hit, parquetCache) := state.parquetCache.get now key
    let state := { state with parquetCache }
    match hit with
    | some file => (some file, state)
    | none =>
      match durableRead deployment state key with
      | some file => (some file, promote state now key file)
      | none => (none, state)

/-- `peek_parquet`: as `get_parquet`, but nothing is promoted. -/
def peekParquet : Option ParquetFile × ServerState :=
  match state.pinned key with
  | some file => (some file, state)
  | none =>
    let (hit, parquetCache) := state.parquetCache.get now key
    let state := { state with parquetCache }
    match hit with
    | some file => (some file, state)
    | none => (durableRead deployment state key, state)

/-- `warm_parquet`. -/
def warmParquet : Option ParquetFile × ServerState :=
  match durableRead deployment state key with
  | some file => (some file, promote state now key file)
  | none => (none, state)

/-- `put_parquet`. -/
def putParquet (file : ParquetFile) : ServerState :=
  durableWrite deployment (promote state now key file) key file

/-- `pin_parquet`. -/
def pinParquet (file : ParquetFile) : ServerState :=
  durableWrite deployment { state with pinned := Function.update state.pinned key (some file) }
    key file

end Caches

/-! ## Startup -/

/-- A split that knows its file. -/
def fillSplit (deployment : Deployment) (split : SplitDescriptor) (file : ParquetFile) :
    SplitDescriptor :=
  { split with
    recordCount := some file.rowCount
    fileSizeInBytes := some file.size
    contentHash := some (deployment.sha256 file)
    s3Etag := some (deployment.md5 file) }

section Startup

variable (deployment : Deployment) (now : Nat)

/-- `_materialize`. A durable file is taken as it is; otherwise the source is read, and
`generated` is the file that this gives. -/
def materializeSplit (generated : Option ParquetFile) (state : ServerState)
    (split : SplitDescriptor) : Option SplitDescriptor × ServerState :=
  let (warm, state) := warmParquet deployment state now split.objectKey
  match warm.or generated with
  | some file => (some (fillSplit deployment split file),
      pinParquet deployment state split.objectKey file)
  | none => (none, state)

/-- The splits of a table. After a failure the others go on if they run concurrently. -/
def materializeSplits (generated : Int → Option ParquetFile) :
    ServerState → List SplitDescriptor → Option (List SplitDescriptor) × ServerState
  | state, [] => (some [], state)
  | state, split :: rest =>
    match materializeSplit deployment now (generated split.splitIndex) state split with
    | (some filled, state) =>
      let (others, state) := materializeSplits generated state rest
      (others.map (filled :: ·), state)
    | (none, state) =>
      if deployment.concurrentStartup then (none, (materializeSplits generated state rest).2)
      else (none, state)

/-- The tables in order. A table that fails is left out, or startup fails with it. -/
def materializeTables (generated : String → Int → Option ParquetFile) :
    ServerState → List ServedTable → Option ServerState
  | state, [] => some state
  | state, table :: rest =>
    match materializeSplits deployment now (generated table.name) state table.current.splits with
    | (some splits, state) =>
      let total := (splits.map fun split => split.recordCount.getD 0).sum
      let current := { table.current with splits, totalRecords := some total }
      materializeTables generated
        { state with tables := state.tables ++ [{ table with current }] } rest
    | (none, state) =>
      if deployment.quarantineFailedTables then materializeTables generated state rest
      else none

/-- The startup of a process, on what earlier processes left on disk and in the store. -/
def startup (runtimeTables : List TableDef) (disk store : String → Option ParquetFile)
    (generated : String → Int → Option ParquetFile) : Option ServerState :=
  materializeTables deployment now generated
    { tables := []
      metadataCache := { maxBytes := 16 * 1024 * 1024, ttl := deployment.metadataCacheTtl }
      parquetCache :=
        { maxBytes := deployment.parquetCacheMaxBytes, ttl := deployment.parquetCacheTtl }
      pinned := fun _ => none
      disk := disk
      store := store }
    (buildAllSnapshots deployment runtimeTables)

end Startup

/-! ## Requests -/

section Requests

variable (deployment : Deployment) (state : ServerState) (now : Nat)

/-- `alias_to_active_key`. -/
def aliasToActiveKey (tables : List ServedTable) (key : String) : String :=
  if deployment.legacyAliases then
    match tables.find? fun table => atOrBelow table.legacyTablePath key with
    | some table => table.tablePath ++ dropChars table.legacyTablePath.length key
    | none => key
  else key

/-- `_normalize_incoming_key`. -/
def normalizeIncomingKey (tables : List ServedTable) (key : String) : String :=
  let active := aliasToActiveKey deployment tables key
  if deployment.warehouseAlias && startsWith "warehouse/" active then dropChars 10 active
  else active

/-- `_normalize_incoming_prefix`, and whether the warehouse alias was asked for. -/
def normalizeIncomingPrefix (tables : List ServedTable) (keyPrefix : String) : String × Bool :=
  let aliased := deployment.warehouseAlias && startsWith "warehouse/" keyPrefix
  (aliasToActiveKey deployment tables (if aliased then dropChars 10 keyPrefix else keyPrefix),
    aliased)

/-- `_display_key_for_prefix`. -/
def displayKeyForPrefix (key : String) (warehouseAlias : Bool) : String :=
  if warehouseAlias && !startsWith "warehouse/" key then "warehouse/" ++ key else key

/-- `active_to_legacy_key`. -/
def activeToLegacyKey (tablePath legacyTablePath key : String) : String :=
  if atOrBelow tablePath key then legacyTablePath ++ dropChars tablePath.length key else key

/-- The key is one of the four metadata objects of a snapshot. -/
def isMetadataKey (snap : SnapshotState) (key : String) : Bool :=
  key = snap.metadataKey || key = snap.versionHintKey || key = snap.manifestListKey ||
    key = snap.manifestFileKey

/-- `_resolve_snapshot_for_key`. -/
def resolveSnapshotForKey (key : String) : Option SnapshotState :=
  let key := aliasToActiveKey deployment state.tables key
  (state.tables.flatMap ServedTable.versions).find? fun snap => isMetadataKey snap key

/-- The key is the key of the split. -/
def isSplitKey (split : SplitDescriptor) (key : String) : Bool :=
  split.objectKey = key || split.canonicalObjectKey = some key

/-- `get_split_by_key`, with the name of the table: current snapshots first. -/
def getSplitByKey (key : String) : Option (String × SplitDescriptor) :=
  let key := aliasToActiveKey deployment state.tables key
  let candidates :=
    state.tables.flatMap (fun table => table.current.splits.map (table.name, ·)) ++
    state.tables.flatMap fun table =>
      (table.versions.flatMap SnapshotState.splits).map (table.name, ·)
  candidates.find? fun candidate => isSplitKey candidate.2 key

/-- A change to the versions of one table. -/
def mapVersions (name : String) (change : SnapshotState → SnapshotState) (table : ServedTable) :
    ServedTable :=
  if table.name = name then
    { table with current := change table.current, earlier := table.earlier.map change }
  else table

/-- A builder writes its result into the snapshot. -/
def ServerState.remember (snap : SnapshotState)
    (build : SnapshotState → MetadataObject × SnapshotState) : ServerState :=
  { state with
    tables := state.tables.map (mapVersions snap.name fun old =>
      if old.version = snap.version then (build old).2 else old) }

/-- The hashes that GET writes into a split it has generated. -/
def ServerState.keepHashes (name : String) (split : SplitDescriptor)
    (file : ParquetFile) : ServerState :=
  let hashed := fun old : SplitDescriptor =>
    if old.splitIndex = split.splitIndex then
      { old with
        contentHash := some (deployment.sha256 file)
        s3Etag := some (deployment.md5 file) }
    else old
  { state with
    tables := state.tables.map (mapVersions name fun snap =>
      { snap with splits := snap.splits.map hashed }) }

/-- What a request is answered with. -/
inductive Response where
  | metadata (object : MetadataObject)
  | data (file : ParquetFile)
  | sizes (objects : List (String × Int))
  | done
  | notFound
  | unavailable
  | failed
  deriving DecidableEq

/-- A metadata object from the cache, or else from its builder. -/
def serveMetadata (key : String) (snap : SnapshotState)
    (build : SnapshotState → MetadataObject × SnapshotState) : Response × ServerState :=
  let (hit, metadataCache) := state.metadataCache.get now key
  match hit with
  | some object => (.metadata object, { state with metadataCache })
  | none =>
    let object := (build snap).1
    (.metadata object,
      { state.remember snap build with
        metadataCache := metadataCache.put deployment.encodedLength now key object })

/-- `_version_hint_bytes`. -/
def versionHint (state : ServerState) (key : String) : MetadataObject :=
  let versions := ((state.tables.flatMap ServedTable.versions).filter
    fun snap => snap.versionHintKey = key).map SnapshotState.version
  .versionHint (versions.foldl max 1)

/-- The part of `get_object` that serves a data file; `answer` is the file that reading
the source now would give. -/
def getData (key : String) (answer : Option ParquetFile) :
    Response × ServerState :=
  match getSplitByKey deployment state key with
  | none => (.notFound, state)
  | some (name, split) =>
    let (cached, state) := getParquet deployment state now key
    match cached with
    | some file => (.data file, state)
    | none =>
      match answer with
      | none => (.unavailable, state)
      | some file => (.data file,
          (putParquet deployment state now key file).keepHashes deployment name split file)

/-- `get_object`. -/
def getObject (key : String) (answer : Option ParquetFile) :
    Response × ServerState :=
  let key := normalizeIncomingKey deployment state.tables key
  match resolveSnapshotForKey deployment state key with
  | none => getData deployment state now key answer
  | some snap =>
    if key = snap.metadataKey then
      serveMetadata deployment state now key snap buildMetadataJson
    else if key = snap.versionHintKey then (.metadata (versionHint state key), state)
    else if key = snap.manifestListKey then
      serveMetadata deployment state now key snap
        (buildManifestList fun object => (deployment.encodedLength object : Int))
    else if key = snap.manifestFileKey then
      serveMetadata deployment state now key snap buildManifestFile
    else getData deployment state now key answer

/-- The data files of `_objects_for_snapshot`, with their sizes. -/
def splitObjects (now : Nat) : ServerState → List SplitDescriptor →
    List (String × Int) × ServerState
  | state, [] => ([], state)
  | state, split :: rest =>
    let (cached, state) := peekParquet deployment state now split.objectKey
    let size : Int := match split.fileSizeInBytes, cached with
      | some size, _ => size
      | none, some file => file.size
      | none, none => 10 * 1024 * 1024
    let (others, state) := splitObjects now state rest
    ((split.objectKey, size) :: others, state)

/-- The objects once more, under the legacy path of their table. -/
def legacyObjects (tablePath legacyTablePath : String) (objects : List (String × Int)) :
    List (String × Int) :=
  if deployment.legacyAliases then
    objects.filterMap fun entry =>
      let legacyKey := activeToLegacyKey tablePath legacyTablePath entry.1
      if legacyKey = entry.1 then none else some (legacyKey, entry.2)
  else []

/-- `_objects_for_snapshot`: the objects of one snapshot, all its metadata built. -/
def objectsForSnapshot (legacyTablePath : String)
    (snap : SnapshotState) : List (String × Int) × ServerState :=
  let length : MetadataObject → Int := fun object => deployment.encodedLength object
  let (metadata, built) := buildMetadataJson snap
  let (manifestList, built) := buildManifestList length built
  let (manifestFile, _) := buildManifestFile built
  let state := ((state.remember snap buildMetadataJson).remember snap
    (buildManifestList length)).remember snap buildManifestFile
  let (files, state) := splitObjects deployment now state snap.splits
  let objects := [(snap.metadataKey, length metadata),
    (snap.versionHintKey, length (.versionHint snap.version)),
    (snap.manifestListKey, length manifestList),
    (snap.manifestFileKey, length manifestFile)] ++ files
  (objects ++ legacyObjects deployment snap.tablePath legacyTablePath objects, state)

/-- The objects of a list of snapshots, each with the legacy path of its table. -/
def objectsOf (now : Nat) :
    ServerState → List (String × SnapshotState) → List (String × Int) × ServerState
  | state, [] => ([], state)
  | state, (legacyTablePath, snap) :: rest =>
    let (objects, state) := objectsForSnapshot deployment state now legacyTablePath snap
    let (others, state) := objectsOf now state rest
    (objects ++ others, state)

/-- `_snapshot_objects`: the objects of all snapshots, oldest version first. -/
def snapshotObjects : List (String × Int) × ServerState :=
  let snapshots := state.tables.flatMap fun table =>
    table.versions.map (table.legacyTablePath, ·)
  objectsOf deployment now state (snapshots.insertionSort
    fun first second => first.2.version ≤ second.2.version)

/-- Advance the tables by name; an unregistered name is a `KeyError`. -/
def advanceTables : List ServedTable → List TableDef → Bool × List ServedTable
  | served, [] => (true, served)
  | served, table :: rest =>
    if served.any fun other => other.name = table.name then
      advanceTables (served.map fun other =>
        if other.name = table.name then advanceTableSnapshot deployment other else other) rest
    else (false, served)

/-- `refresh_snapshot`, automatic refresh being off. -/
def refreshSnapshot : Response × ServerState :=
  if deployment.snapshotHistory then
    let (complete, tables) := advanceTables deployment state.tables deployment.tables
    (if complete then .done else .failed,
      { state with tables, metadataCache := state.metadataCache.clear })
  else
    (.done, { state with
      tables := buildAllSnapshots deployment deployment.tables
      metadataCache := state.metadataCache.clear
      parquetCache := state.parquetCache.clear })

/-- A request, at the time it is handled. A GET carries the file that reading the source
for it would give. -/
inductive Request where
  | get (now : Nat) (key : String) (answer : Option ParquetFile)
  | head (now : Nat) (key : String)
  | list (now : Nat) (keyPrefix : String)
  | refresh

/-- The answer to a request and the state it leaves. -/
def handle : Request → Response × ServerState
  | .get now key answer => getObject deployment state now key answer
  | .head now key =>
    let key := normalizeIncomingKey deployment state.tables key
    let (objects, state) := snapshotObjects deployment state now
    match objects.reverse.lookup key with
    | some size => (.sizes [(key, size)], state)
    | none => (.notFound, state)
  | .list now keyPrefix =>
    let (keyPrefix, aliased) := normalizeIncomingPrefix deployment state.tables keyPrefix
    let (objects, state) := snapshotObjects deployment state now
    (.sizes ((objects.filter fun entry => startsWith keyPrefix entry.1).map
      fun entry => (displayKeyForPrefix entry.1 aliased, entry.2)), state)
  | .refresh => refreshSnapshot deployment state

/-- The state after a sequence of requests. -/
def run (requests : List Request) : ServerState :=
  requests.foldl (fun state request => (handle deployment state request).2) state

end Requests

end ShortcutProxy.EagerServing
