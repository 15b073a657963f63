import ShortcutProxy.Records
import ShortcutProxy.TableMetadata

/-!
# The snapshots registered in a process

`iceberg/state_store.py` keeps, in the memory of one process, the current snapshot
of each table and the versions that are still retained. `iceberg/freshness.py`
publishes a refreshed snapshot by registering it there as the next version. No
process sees the registry of another one.

Snapshot identifiers are digests of names and contents; they are arguments here.
A registered snapshot is shared by the two dictionaries, so a change made to it in
place shows in both.
-/

namespace ShortcutProxy.SnapshotRegistry

open Records TableMetadata

/-- The dictionaries `_snapshots` and `_history`. -/
structure Registry where
  current : Table String SnapshotState := ∅
  history : Table String (List SnapshotState) := ∅

/-- `get_all_snapshots`. -/
def getAllSnapshots (registry : Registry) : List SnapshotState :=
  if registry.history.isEmpty then listing registry.current
  else (listing registry.history).flatten

/-- The part of `build_table_snapshot` that registers the snapshot it built. -/
def buildTableSnapshot (snap : SnapshotState) (registry : Registry) : Registry where
  current := assign registry.current snap.name (some snap)
  history := assign registry.history snap.name (some [snap])

/-- `build_all_snapshots`. -/
def buildAllSnapshots (snaps : List SnapshotState) : Registry :=
  snaps.foldl (fun registry snap => buildTableSnapshot snap registry) {}

/-- The version that `advance_table_snapshot` builds on the current one. It shares
the data files. -/
def nextVersion (snap : SnapshotState) (snapshotId : Int) (uuid : String) : SnapshotState where
  name := snap.name
  tablePath := snap.tablePath
  version := snap.version + 1
  snapshotId := snapshotId
  manifestListKey := snap.tablePath ++ "/metadata/snap-" ++ toString snapshotId ++ "-" ++
    toString (snap.sequenceNumber + 1) ++ "-" ++ uuid ++ ".avro"
  manifestFileKey := snap.tablePath ++ "/metadata/" ++ uuid ++ "-m" ++
    toString (snap.version + 1) ++ ".avro"
  metadataKey := snap.tablePath ++ "/metadata/v" ++ toString (snap.version + 1) ++
    ".metadata.json"
  versionHintKey := snap.versionHintKey
  splits := snap.splits
  sequenceNumber := snap.sequenceNumber + 1
  totalRecords := snap.totalRecords

/-- `advance_table_snapshot`; a table without a snapshot is a `KeyError`. -/
def advanceTableSnapshot (name : String) (snapshotId : Int) (uuid : String)
    (registry : Registry) : Option Registry :=
  registry.current[name]?.map fun snap =>
    let next := nextVersion snap snapshotId uuid
    { current := assign registry.current name (some next)
      history := assign registry.history name
        (some (registry.history[name]?.getD [snap] ++ [next])) }

/-- `register_snapshot`, with the versions that it drops beyond
`SNAPSHOT_HISTORY_LIMIT`. -/
def registerSnapshot (historyLimit : Int) (snap : SnapshotState) (registry : Registry) :
    List SnapshotState × Registry :=
  let versions := registry.history[snap.name]?.getD [] ++ [snap]
  let excess := versions.length - (max 1 historyLimit).toNat
  (versions.take excess,
    { current := assign registry.current snap.name (some snap)
      history := assign registry.history snap.name (some (versions.drop excess)) })

/-- `unregister_snapshot`. -/
def unregisterSnapshot (name : String) (registry : Registry) : Registry where
  current := assign registry.current name none
  history := assign registry.history name none

/-- `_finalize_versioned_keys`. -/
def finalizeVersionedKeys (version : Int) (snap : SnapshotState) : SnapshotState :=
  { snap with
    version := version
    sequenceNumber := version
    metadataKey := snap.tablePath ++ "/metadata/v" ++ toString version ++ ".metadata.json"
    manifestListKey := snap.tablePath ++ "/metadata/snap-" ++ toString snap.snapshotId ++ "-" ++
      toString version ++ "-" ++ snap.uuid ++ ".avro"
    manifestFileKey := snap.tablePath ++ "/metadata/" ++ snap.uuid ++ "-m" ++ toString version ++
      ".avro"
    metadataBytes := none
    manifestListBytes := none
    manifestFileBytes := none }

/-- `publish` of `iceberg/freshness.py`: register the candidate as the next version
unless the current version has the same identifier. -/
def publish (historyLimit : Int) (candidate : SnapshotState) (registry : Registry) :
    Bool × Registry :=
  match registry.current[candidate.name]? with
  | none => (true, (registerSnapshot historyLimit (finalizeVersionedKeys 1 candidate) registry).2)
  | some prior =>
    if candidate.snapshotId = prior.snapshotId then (false, registry)
    else (true, (registerSnapshot historyLimit
      (finalizeVersionedKeys (prior.version + 1) candidate) registry).2)

/-- What can happen to the registry of a process. -/
inductive Change where
  | build (snap : SnapshotState)
  | buildAll (snaps : List SnapshotState)
  | advance (name : String) (snapshotId : Int) (uuid : String)
  | publish (historyLimit : Int) (candidate : SnapshotState)
  | unregister (name : String)
  | rewrite (name : String) (edit : SnapshotState → SnapshotState)

/-- The registry after a change. -/
def Registry.apply (registry : Registry) : Change → Registry
  | .build snap => buildTableSnapshot snap registry
  | .buildAll snaps => buildAllSnapshots snaps
  | .advance name snapshotId uuid =>
    (advanceTableSnapshot name snapshotId uuid registry).getD registry
  | .publish historyLimit candidate => (SnapshotRegistry.publish historyLimit candidate registry).2
  | .unregister name => unregisterSnapshot name registry
  | .rewrite name edit =>
    { current := assign registry.current name (registry.current[name]?.map edit)
      history := assign registry.history name (registry.history[name]?.map (.map edit)) }

end ShortcutProxy.SnapshotRegistry
