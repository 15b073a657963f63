import ShortcutProxy.Contract

/-!
# Snapshots in memory and the metadata built from them

`iceberg/state_store.py` keeps one snapshot of each table in the memory of a
process. `iceberg/metadata.py`, `iceberg/manifest.py` and `delta/log.py` build the
objects a reader starts from out of that snapshot, and remember what they built.

A metadata object is kept as what it says, not as the bytes that say it: the
encoders are not modelled, except that the manifest list states the length of the
encoded manifest file. A Manager only ever has the first version of a table, so
neither earlier versions nor later Delta commits appear. Column statistics are
absent on a Manager, which never reads the data files.
-/
namespace ShortcutProxy.TableMetadata

open Contract

/-- One virtual data file of a snapshot. -/
structure SplitDescriptor where
  splitIndex : Int
  objectKey : String
  recordCount : Option Int := none
  fileSizeInBytes : Option Int := none
  contentHash : Option String := none
  s3Etag : Option String := none
  range : Option KeyRange := none
  canonicalObjectKey : Option String := none
  deriving DecidableEq, Repr

/-- A data file as a metadata object lists it. -/
structure DataFile where
  objectKey : String
  recordCount : Int
  fileSize : Int
  deriving DecidableEq, Repr

/-- An object that readers of a table start from. -/
inductive MetadataObject where
  | tableMetadata (version snapshotId : Int) (manifestListKey : String) (fileCount : Nat)
      (totalRecords : Int)
  | manifestList (manifestKey : String) (manifestLength : Int) (fileCount : Nat) (rowCount : Int)
  | manifestFile (files : List DataFile)
  | versionHint (version : Int)
  | deltaCommit (files : List DataFile)
  deriving DecidableEq, Repr

/-- The data files an object lists. -/
def MetadataObject.files : MetadataObject → List DataFile
  | .manifestFile files | .deltaCommit files => files
  | .tableMetadata .. | .manifestList .. | .versionHint _ => []

/-- The snapshot of one table in the memory of a process, with what the builders
remember of it. -/
structure SnapshotState where
  name : String
  tablePath : String
  version : Int := 1
  snapshotId : Int
  manifestListKey : String
  manifestFileKey : String
  metadataKey : String
  versionHintKey : String
  splits : List SplitDescriptor
  sequenceNumber : Int := 1
  uuid : String := ""
  totalRecords : Option Int := none
  metadataBytes : Option MetadataObject := none
  manifestListBytes : Option MetadataObject := none
  manifestFileBytes : Option MetadataObject := none
  deltaCommit : Option MetadataObject := none
  deriving DecidableEq, Repr

/-- `PLACEHOLDER_RECORD_COUNT`. -/
def placeholderRecordCount : Int := 100000

/-- `PLACEHOLDER_FILE_SIZE`. -/
def placeholderFileSize : Int := 10 * 1024 * 1024

/-- `build_metadata_json`, with the snapshot that remembers the result. -/
def buildMetadataJson (snap : SnapshotState) : MetadataObject × SnapshotState :=
  match snap.metadataBytes with
  | some built => (built, snap)
  | none =>
    let built := .tableMetadata snap.version snap.snapshotId snap.manifestListKey
      snap.splits.length (snap.totalRecords.getD 0)
    (built, { snap with metadataBytes := some built })

/-- The entry of a manifest file for one split. -/
def manifestEntry (split : SplitDescriptor) : DataFile where
  objectKey := split.objectKey
  recordCount := split.recordCount.getD placeholderRecordCount
  fileSize := split.fileSizeInBytes.getD placeholderFileSize

/-- `build_manifest_file`. -/
def buildManifestFile (snap : SnapshotState) : MetadataObject × SnapshotState :=
  match snap.manifestFileBytes with
  | some built => (built, snap)
  | none =>
    let built := .manifestFile (snap.splits.map manifestEntry)
    (built, { snap with manifestFileBytes := some built })

/-- `build_manifest_list`, for an encoder whose output has this length. -/
def buildManifestList (encodedLength : MetadataObject → Int) (snap : SnapshotState) :
    MetadataObject × SnapshotState :=
  match snap.manifestListBytes with
  | some built => (built, snap)
  | none =>
    let manifest := buildManifestFile snap
    let rows := (snap.splits.map fun split =>
      split.recordCount.getD placeholderRecordCount).sum
    let built := .manifestList snap.manifestFileKey (encodedLength manifest.1)
      snap.splits.length rows
    (built, { manifest.2 with manifestListBytes := some built })

/-- The `add` action of a Delta commit for one split. -/
def addAction (split : SplitDescriptor) : DataFile where
  objectKey := split.objectKey
  recordCount := split.recordCount.getD 0
  fileSize := split.fileSizeInBytes.getD 0

/-- `_register` for the first version of a table, as `delta_log_objects` calls it. -/
def buildDeltaCommit (snap : SnapshotState) : MetadataObject × SnapshotState :=
  match snap.deltaCommit with
  | some built => (built, snap)
  | none =>
    let built := .deltaCommit (snap.splits.map addAction)
    (built, { snap with deltaCommit := some built })

/-- `invalidate_table`. -/
def invalidateTable (snap : SnapshotState) : SnapshotState := { snap with deltaCommit := none }

/-- `_log_key` of the first commit. -/
def deltaLogKey (snap : SnapshotState) : String :=
  snap.tablePath ++ "/_delta_log/00000000000000000000.json"

end ShortcutProxy.TableMetadata
