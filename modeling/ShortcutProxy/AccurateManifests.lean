import ShortcutProxy.EagerServing

/-!
# Manifests that declare what GET returns

Readers locate the footer of a Parquet file by the size that the manifest declares, so
the manifest and the bytes must agree for as long as both are served. The invariant
`Sound` ties every split of a registered snapshot, every manifest that a builder has
remembered and every manifest in the cache to the pinned files. Startup establishes it,
and every request keeps it except a refresh that rebuilds the snapshots: its new splits
have no sizes, and the manifest then declares the placeholders.

Two configured tables over one source table may get the same keys, and GET may take a
data key for an alias of another. `KeysApart` excludes both.
-/

namespace ShortcutProxy.AccurateManifests

open EagerServing LruCache PathText TableConfig TableMetadata List SplitDescriptor ServedTable

/-! ## Accurate manifests -/

/-- The manifest declares of a file what the file is. -/
def Matches (declared : DataFile) (file : ParquetFile) : Prop :=
  declared.recordCount = file.rowCount ∧ declared.fileSize = file.size

variable (deployment : Deployment)

/-- Whatever manifest GET serves, GET returns each of its data files, with the row count
and the length that the manifest declares. -/
def Accurate (state : ServerState) : Prop :=
  ∀ now key answer files,
    (getObject deployment state now key answer).1 = .metadata (.manifestFile files) →
    ∀ declared ∈ files, ∀ later answer, ∃ file,
      (getObject deployment state later declared.objectKey answer).1 = .data file ∧
      Matches declared file

/-- GET takes the key as it is: it lies below no legacy path and has no alias prefix. -/
def Unaliased (legacyPaths : List String) (key : String) : Prop :=
  (deployment.legacyAliases = true → ∀ path ∈ legacyPaths, atOrBelow path key = false) ∧
  (deployment.warehouseAlias = true → startsWith "warehouse/" key = false)

/-- The data files of the tables have keys of their own. -/
structure KeysApart (tables : List TableDef) : Prop where
  distinct : (tables.flatMap (dataKeys deployment)).Nodup
  unaliased : ∀ key ∈ tables.flatMap (dataKeys deployment),
    Unaliased deployment (tables.map deployment.legacyTablePath) key

/-- Some registered version has a data file with this key. -/
def Known (tables : List ServedTable) (key : String) : Prop :=
  ∃ table ∈ tables, ∃ snap ∈ table.versions, ∃ split ∈ snap.splits, split.objectKey = key

/-- The last characters of a key. -/
def ending (key : String) : List Char := key.toList.reverse.take 5

theorem ending_append {start rest : String} (long : 5 ≤ rest.toList.length) :
    ending (start ++ rest) = ending rest := by
  unfold ending
  rw [String.toList_append, reverse_append, take_append_of_le_length]
  simpa using long

/-- A data file is declared as it is pinned, under a key that GET resolves to it. -/
structure Declared (state : ServerState) (declared : DataFile) :
    Prop where
  parquet : ending declared.objectKey = ending ".parquet"
  known : Known state.tables declared.objectKey
  unaliased : Unaliased deployment (state.tables.map ServedTable.legacyTablePath)
    declared.objectKey
  pinned : ∃ file, state.pinned declared.objectKey = some file ∧ Matches declared file

/-- Every data file that an object lists is declared. -/
def AllDeclared (state : ServerState) (object : MetadataObject) : Prop :=
  ∀ declared ∈ object.files, Declared deployment state declared

/-- The snapshot knows its files, and so does all that was built from it. -/
structure SoundSnapshot (state : ServerState) (snap : SnapshotState) :
    Prop where
  splits : ∀ split ∈ snap.splits, Declared deployment state (manifestEntry split)
  memo : ∀ object, snap.metadataBytes = some object ∨ snap.manifestListBytes = some object ∨
    snap.manifestFileBytes = some object → AllDeclared deployment state object
  keys : ∀ key, isMetadataKey snap key = true → ending key ≠ ending ".parquet"

/-- The invariant of the serving process. -/
structure Sound (state : ServerState) : Prop where
  snapshots : ∀ table ∈ state.tables, ∀ snap ∈ table.versions,
    SoundSnapshot deployment state snap
  cached : state.metadataCache.Holds fun _ object => AllDeclared deployment state object

/-- Nothing that a declared file rests on has gone. -/
structure Grows (before after : ServerState) : Prop where
  pinned : after.pinned = before.pinned
  paths : ∀ path ∈ after.tables.map ServedTable.legacyTablePath,
    path ∈ before.tables.map ServedTable.legacyTablePath
  known : ∀ key, Known before.tables key → Known after.tables key

variable {snap : SnapshotState} {key : String}

section Growth

variable {deployment : Deployment} {before after : ServerState}

theorem Declared.mono {declared : DataFile} (declares : Declared deployment before declared)
    (grows : Grows before after) : Declared deployment after declared where
  parquet := declares.parquet
  known := grows.known _ declares.known
  unaliased := ⟨fun aliases path registered => declares.unaliased.1 aliases path
    (grows.paths path registered), declares.unaliased.2⟩
  pinned := by
    rw [grows.pinned]
    exact declares.pinned

theorem AllDeclared.mono {object : MetadataObject} (all : AllDeclared deployment before object)
    (grows : Grows before after) : AllDeclared deployment after object :=
  fun declared listed => (all declared listed).mono grows

theorem SoundSnapshot.mono (sound : SoundSnapshot deployment before snap)
    (grows : Grows before after) : SoundSnapshot deployment after snap where
  splits split member := (sound.splits split member).mono grows
  memo object built := (sound.memo object built).mono grows
  keys := sound.keys

/-- A state that grows stays sound when its snapshots come from the earlier ones. -/
theorem sound_of_grows (grows : Grows before after)
    (snapshots : ∀ table ∈ after.tables, ∀ snap ∈ table.versions,
      SoundSnapshot deployment before snap)
    (cached : after.metadataCache.Holds fun _ object => AllDeclared deployment before object) :
    Sound deployment after where
  snapshots table registered snap version := (snapshots table registered snap version).mono grows
  cached := cached.imp fun _ _ all => all.mono grows

/-- The tables and the pinned files are all that soundness reads, the cache apart. -/
theorem Sound.of_same (sound : Sound deployment before) (tables : after.tables = before.tables)
    (pinned : after.pinned = before.pinned)
    (cached : after.metadataCache.Holds fun _ object => AllDeclared deployment before object) :
    Sound deployment after := by
  refine sound_of_grows ⟨pinned, ?_, ?_⟩ ?_ cached
  · intro path registered
    rwa [tables] at registered
  · intro key known
    rwa [tables]
  · intro table registered
    rw [tables] at registered
    exact sound.snapshots table registered

end Growth

/-! ### Building metadata -/

section Builders

variable {deployment : Deployment} {state : ServerState} {snap : SnapshotState}

/-- What a builder does to a snapshot: the object lists declared files only, and the
snapshot keeps its splits. -/
structure SoundBuild (build : SnapshotState → MetadataObject × SnapshotState) : Prop where
  splits : ∀ snap, (build snap).2.splits = snap.splits
  object : ∀ deployment state snap, SoundSnapshot deployment state snap →
    AllDeclared deployment state (build snap).1
  snapshot : ∀ deployment state snap, SoundSnapshot deployment state snap →
    SoundSnapshot deployment state (build snap).2

theorem buildMetadataJson_sound : SoundBuild buildMetadataJson where
  splits snap := by
    unfold buildMetadataJson
    split <;> rfl
  object deployment state snap sound := by
    unfold buildMetadataJson
    split
    · rename_i built memo
      exact sound.memo built (.inl memo)
    · intro declared listed
      simp [MetadataObject.files] at listed
  snapshot deployment state snap sound := by
    unfold buildMetadataJson
    split
    · exact sound
    · refine ⟨sound.splits, ?_, sound.keys⟩
      rintro object (built | built | built)
      · obtain rfl := Option.some.inj built
        intro declared listed
        simp [MetadataObject.files] at listed
      · exact sound.memo object (.inr (.inl built))
      · exact sound.memo object (.inr (.inr built))

theorem SoundSnapshot.manifestFile (sound : SoundSnapshot deployment state snap) :
    AllDeclared deployment state (.manifestFile (snap.splits.map manifestEntry)) := by
  intro declared listed
  obtain ⟨split, member, rfl⟩ := mem_map.mp listed
  exact sound.splits split member

theorem buildManifestFile_sound : SoundBuild buildManifestFile where
  splits snap := by
    unfold buildManifestFile
    split <;> rfl
  object deployment state snap sound := by
    unfold buildManifestFile
    split
    · rename_i built memo
      exact sound.memo built (.inr (.inr memo))
    · exact sound.manifestFile
  snapshot deployment state snap sound := by
    unfold buildManifestFile
    split
    · exact sound
    · refine ⟨sound.splits, ?_, sound.keys⟩
      rintro object (built | built | built)
      · exact sound.memo object (.inl built)
      · exact sound.memo object (.inr (.inl built))
      · obtain rfl := Option.some.inj built
        exact sound.manifestFile

theorem buildManifestList_sound (encodedLength : MetadataObject → Int) :
    SoundBuild (buildManifestList encodedLength) where
  splits snap := by
    unfold buildManifestList
    split
    · rfl
    · exact buildManifestFile_sound.splits snap
  object deployment state snap sound := by
    unfold buildManifestList
    split
    · rename_i built memo
      exact sound.memo built (.inr (.inl memo))
    · intro declared listed
      simp [MetadataObject.files] at listed
  snapshot deployment state snap sound := by
    unfold buildManifestList
    split
    · exact sound
    · have built := buildManifestFile_sound.snapshot deployment state snap sound
      refine ⟨built.splits, ?_, built.keys⟩
      rintro object (memo | memo | memo)
      · exact built.memo object (.inl memo)
      · obtain rfl := Option.some.inj memo
        intro declared listed
        simp [MetadataObject.files] at listed
      · exact built.memo object (.inr (.inr memo))

end Builders

/-! ### Steps -/

section Steps

variable {deployment : Deployment} {state : ServerState}

variable {change : SnapshotState → SnapshotState}

theorem exists_of_mem_mapVersions {name : String} {table : ServedTable}
    (version : snap ∈ (mapVersions name change table).versions) :
    ∃ old ∈ table.versions, snap = change old ∨ snap = old := by
  unfold mapVersions at version
  split at version
  · obtain ⟨old, member, rfl⟩ : ∃ old ∈ table.versions, change old = snap := by
      simpa [versions, or_and_right, exists_or, eq_comm] using version
    exact ⟨old, member, .inl rfl⟩
  · exact ⟨snap, version, .inr rfl⟩

@[simp] theorem mapVersions_legacyTablePath (name : String)
    (change : SnapshotState → SnapshotState) (table : ServedTable) :
    (mapVersions name change table).legacyTablePath = table.legacyTablePath := by
  unfold mapVersions
  split <;> rfl

/-- A change of the snapshots that keeps the keys of their files. -/
theorem grows_mapVersions (name : String)
    (keys : ∀ snap, (change snap).splits.map objectKey =
      snap.splits.map objectKey) :
    Grows state { state with tables := state.tables.map (mapVersions name change) } := by
  refine ⟨rfl, ?_, ?_⟩
  · intro path registered
    simpa [Function.comp_def] using registered
  rintro key ⟨table, registered, old, version, split, member, rfl⟩
  obtain ⟨snap, newVersion, origin⟩ :
      ∃ snap ∈ (mapVersions name change table).versions, snap = change old ∨ snap = old := by
    unfold mapVersions
    split
    · refine ⟨change old, ?_, .inl rfl⟩
      have member := mem_map_of_mem (f := change) version
      simpa [versions] using member
    · exact ⟨old, version, .inr rfl⟩
  have sameKeys : snap.splits.map objectKey =
      old.splits.map objectKey := by
    rcases origin with rfl | rfl
    · exact keys old
    · rfl
  have found : split.objectKey ∈ snap.splits.map objectKey := by
    rw [sameKeys]
    exact mem_map_of_mem member
  obtain ⟨other, listed, sameKey⟩ := mem_map.mp found
  exact ⟨_, mem_map_of_mem registered, snap, newVersion, other, listed, sameKey⟩

theorem Sound.mapVersions (sound : Sound deployment state) (name : String)
    (keys : ∀ snap, (change snap).splits.map objectKey =
      snap.splits.map objectKey)
    (kept : ∀ snap, SoundSnapshot deployment state snap →
      SoundSnapshot deployment state (change snap)) :
    Sound deployment { state with tables := state.tables.map (mapVersions name change) } := by
  refine sound_of_grows (grows_mapVersions name keys) ?_ sound.cached
  intro table registered snap version
  obtain ⟨oldTable, wasRegistered, rfl⟩ := mem_map.mp registered
  obtain ⟨old, wasVersion, rfl | rfl⟩ := exists_of_mem_mapVersions version
  · exact kept old (sound.snapshots oldTable wasRegistered old wasVersion)
  · exact sound.snapshots oldTable wasRegistered snap wasVersion

section Remember

variable {build : SnapshotState → MetadataObject × SnapshotState} (builds : SoundBuild build)
include builds

theorem SoundBuild.keys (snap old : SnapshotState) :
    (if old.version = snap.version then (build old).2 else old).splits.map
      objectKey = old.splits.map objectKey := by
  split
  · rw [builds.splits]
  · rfl

theorem grows_remember (snap : SnapshotState) : Grows state (state.remember snap build) :=
  grows_mapVersions snap.name (builds.keys snap)

theorem Sound.remember (sound : Sound deployment state) (snap : SnapshotState) :
    Sound deployment (state.remember snap build) := by
  refine sound.mapVersions snap.name (builds.keys snap) fun old soundOld => ?_
  split
  · exact builds.snapshot deployment state old soundOld
  · exact soundOld

end Remember

theorem Sound.keepHashes (sound : Sound deployment state) (name : String) (split : SplitDescriptor)
    (file : ParquetFile) :
    Sound deployment (state.keepHashes deployment name split file) := by
  refine sound.mapVersions name ?_ ?_
  · intro snap
    simp only [map_map]
    refine map_congr_left fun old _ => ?_
    simp only [Function.comp_apply]
    split <;> rfl
  · intro snap soundSnap
    refine ⟨?_, soundSnap.memo, soundSnap.keys⟩
    intro hashed member
    obtain ⟨old, wasMember, rfl⟩ := mem_map.mp member
    have sameEntry : manifestEntry (if old.splitIndex = split.splitIndex then
        { old with contentHash := some (deployment.sha256 file),
                   s3Etag := some (deployment.md5 file) } else old) = manifestEntry old := by
      split <;> rfl
    rw [sameEntry]
    exact soundSnap.splits old wasMember

/-! ### The cache operations change neither the tables nor the pinned files -/

/-- A step touches the pinned files under these keys only. -/
structure PinsOnly (keys : List String) (before after : ServerState) : Prop where
  tables : after.tables = before.tables
  metadataCache : after.metadataCache = before.metadataCache
  pinned : ∀ key ∉ keys, after.pinned key = before.pinned key

theorem PinsOnly.trans {keys laterKeys : List String} {first second third : ServerState}
    (earlier : PinsOnly keys first second) (later : PinsOnly laterKeys second third) :
    PinsOnly (keys ++ laterKeys) first third where
  tables := later.tables.trans earlier.tables
  metadataCache := later.metadataCache.trans earlier.metadataCache
  pinned key apart := by
    rw [mem_append, not_or] at apart
    exact (later.pinned key apart.2).trans (earlier.pinned key apart.1)

theorem getParquet_pinsOnly (now : Nat) (key : String) :
    PinsOnly [] state (getParquet deployment state now key).2 := by
  unfold getParquet promote
  split
  · exact ⟨rfl, rfl, fun _ _ => rfl⟩
  · dsimp only
    split
    · exact ⟨rfl, rfl, fun _ _ => rfl⟩
    · split <;> exact ⟨rfl, rfl, fun _ _ => rfl⟩

theorem peekParquet_pinsOnly (now : Nat) (key : String) :
    PinsOnly [] state (peekParquet deployment state now key).2 := by
  unfold peekParquet
  split
  · exact ⟨rfl, rfl, fun _ _ => rfl⟩
  · dsimp only
    split <;> exact ⟨rfl, rfl, fun _ _ => rfl⟩

theorem splitObjects_pinsOnly (now : Nat) (splits : List SplitDescriptor) :
    PinsOnly [] state (splitObjects deployment now state splits).2 := by
  induction splits generalizing state with
  | nil => exact ⟨rfl, rfl, fun _ _ => rfl⟩
  | cons split rest ih => exact (peekParquet_pinsOnly now split.objectKey).trans ih

section

variable (sound : Sound deployment state)
include sound

theorem Sound.of_pinsOnly {after : ServerState}
    (only : PinsOnly [] state after) : Sound deployment after :=
  sound.of_same only.tables (funext fun key => only.pinned key not_mem_nil)
    (by rw [only.metadataCache]; exact sound.cached)

/-! ### Requests -/

theorem Sound.serveMetadata (now : Nat) (key : String)
    (soundSnap : SoundSnapshot deployment state snap)
    {build : SnapshotState → MetadataObject × SnapshotState} (builds : SoundBuild build) :
    Sound deployment (serveMetadata deployment state now key snap build).2 ∧
    ∀ object, (serveMetadata deployment state now key snap build).1 = .metadata object →
      AllDeclared deployment state object := by
  unfold EagerServing.serveMetadata
  dsimp only
  split
  · rename_i object hit
    refine ⟨sound.of_same rfl rfl (sound.cached.get now key), ?_⟩
    intro served same
    obtain rfl : object = served := by simpa using same
    exact sound.cached.of_get hit
  · have built := builds.object deployment state snap soundSnap
    refine ⟨?_, ?_⟩
    · have grows := @grows_remember state build builds snap
      have remembered := sound.remember builds snap
      refine remembered.of_same rfl rfl (.put ?_ _ now (built.mono grows))
      exact .get remembered.cached now key
    · intro served same
      obtain rfl : (build snap).1 = served := by simpa using same
      exact built

theorem Sound.getData (now : Nat) (key : String) (answer : Option ParquetFile) :
    Sound deployment (getData deployment state now key answer).2 ∧
    ∀ object, (getData deployment state now key answer).1 ≠ .metadata object := by
  have read := sound.of_pinsOnly (@getParquet_pinsOnly deployment state now key)
  unfold EagerServing.getData
  split
  · exact ⟨sound, by simp⟩
  · rename_i name split _
    dsimp only
    split
    · exact ⟨read, by simp⟩
    · split
      · exact ⟨read, by simp⟩
      · rename_i file
        refine ⟨.keepHashes ?_ name split file, by simp⟩
        exact read.of_pinsOnly ⟨rfl, rfl, fun _ _ => rfl⟩

/-- One GET keeps the invariant, and a metadata object it serves lists declared files. -/
theorem Sound.getObject (now : Nat) (key : String) (answer : Option ParquetFile) :
    Sound deployment (getObject deployment state now key answer).2 ∧
    ∀ object, (getObject deployment state now key answer).1 = .metadata object →
      AllDeclared deployment state object := by
  have data := sound.getData now (normalizeIncomingKey deployment state.tables key) answer
  unfold EagerServing.getObject
  dsimp only
  split
  · exact ⟨data.1, fun object same => absurd same (data.2 object)⟩
  · rename_i snap found
    have soundSnap : SoundSnapshot deployment state snap := by
      obtain ⟨table, registered, version⟩ := mem_flatMap.mp (mem_of_find?_eq_some found)
      exact sound.snapshots table registered snap version
    split
    · exact sound.serveMetadata now _ soundSnap buildMetadataJson_sound
    split
    · refine ⟨sound, ?_⟩
      intro object same declared listed
      obtain rfl : versionHint state _ = object := by simpa using same
      simp [versionHint, MetadataObject.files] at listed
    split
    · exact sound.serveMetadata now _ soundSnap (buildManifestList_sound _)
    split
    · exact sound.serveMetadata now _ soundSnap buildManifestFile_sound
    · exact ⟨data.1, fun object same => absurd same (data.2 object)⟩

theorem Sound.objectsOf (now : Nat) (snapshots : List (String × SnapshotState)) :
    Sound deployment (objectsOf deployment now state snapshots).2 := by
  induction snapshots generalizing state with
  | nil => exact sound
  | cons head rest ih =>
    obtain ⟨path, snap⟩ := head
    refine ih (.of_pinsOnly ?_ (splitObjects_pinsOnly now snap.splits))
    have metadata := sound.remember buildMetadataJson_sound snap
    have manifestList := metadata.remember
      (buildManifestList_sound fun object => (deployment.encodedLength object : Int)) snap
    exact manifestList.remember buildManifestFile_sound snap

end

theorem ending_avro (start : String) : ending (start ++ ".avro") ≠ ending ".parquet" := by
  rw [ending_append (by decide)]
  decide

theorem ending_json (start : String) : ending (start ++ ".json") ≠ ending ".parquet" := by
  rw [ending_append (by decide)]
  decide

theorem ending_text (start : String) : ending (start ++ ".text") ≠ ending ".parquet" := by
  rw [ending_append (by decide)]
  decide

theorem isMetadataKey_iff :
    isMetadataKey snap key = true ↔ key = snap.metadataKey ∨ key = snap.versionHintKey ∨
      key = snap.manifestListKey ∨ key = snap.manifestFileKey := by
  simp [isMetadataKey, or_assoc]

/-- A new version of a sound table is sound: it has the splits of the last one. -/
theorem SoundSnapshot.advance {table : ServedTable}
    (sound : SoundSnapshot deployment state table.current) :
    SoundSnapshot deployment state (advanceTableSnapshot deployment table).current := by
  refine ⟨sound.splits, ?_, ?_⟩
  · rintro object (built | built | built) <;> cases built
  · intro key isKey
    rcases isMetadataKey_iff.mp isKey with rfl | isHint | rfl | rfl
    · exact ending_json _
    · exact sound.keys key (isMetadataKey_iff.mpr (.inr (.inl isHint)))
    · exact ending_avro _
    · exact ending_avro _

theorem versions_advance (table : ServedTable) :
    (advanceTableSnapshot deployment table).versions =
      table.versions ++ [(advanceTableSnapshot deployment table).current] := rfl

/-- Advancing some of the tables. -/
theorem Sound.advance (sound : Sound deployment state) (name : String) :
    Sound deployment { state with
      tables := state.tables.map fun table =>
        if table.name = name then advanceTableSnapshot deployment table else table } := by
  have grows : Grows state { state with
      tables := state.tables.map fun table =>
        if table.name = name then advanceTableSnapshot deployment table else table } := by
    refine ⟨rfl, ?_, ?_⟩
    · intro path registered
      obtain ⟨table, advanced, rfl⟩ := mem_map.mp registered
      obtain ⟨old, wasRegistered, rfl⟩ := mem_map.mp advanced
      refine mem_map.mpr ⟨old, wasRegistered, ?_⟩
      split <;> rfl
    · rintro key ⟨table, registered, snap, version, split, member, rfl⟩
      refine ⟨_, mem_map_of_mem registered, snap, ?_, split, member, rfl⟩
      split
      · rw [versions_advance]
        exact mem_append_left _ version
      · exact version
  refine sound_of_grows grows ?_ sound.cached
  intro table registered snap version
  obtain ⟨old, wasRegistered, rfl⟩ := mem_map.mp registered
  have kept := sound.snapshots old wasRegistered
  split at version
  · rw [versions_advance] at version
    rcases mem_append.mp version with earlier | newest
    · exact kept snap earlier
    · obtain rfl : snap = (advanceTableSnapshot deployment old).current := by simpa using newest
      exact (kept old.current (by simp [versions])).advance
  · exact kept snap version

theorem Sound.advanceTables (sound : Sound deployment state) (tables : List TableDef) :
    Sound deployment
      { state with tables := (advanceTables deployment state.tables tables).2 } := by
  induction tables generalizing state with
  | nil => exact sound
  | cons table rest ih =>
    unfold EagerServing.advanceTables
    split
    · exact ih (sound.advance table.name)
    · exact sound

/-- One request keeps the invariant, unless it rebuilds the snapshots. -/
theorem Sound.handle (sound : Sound deployment state) {request : Request}
    (kept : deployment.snapshotHistory = true ∨ request ≠ .refresh) :
    Sound deployment (handle deployment state request).2 := by
  cases request with
  | get now key answer => exact (sound.getObject now key answer).1
  | head now key =>
    unfold EagerServing.handle
    dsimp only
    split <;> exact sound.objectsOf now _
  | list now keyPrefix => exact sound.objectsOf now _
  | refresh =>
    have history : deployment.snapshotHistory = true := kept.resolve_right (by simp)
    have advanced := sound.advanceTables deployment.tables
    simp only [EagerServing.handle, refreshSnapshot, history, if_true]
    exact advanced.of_same rfl rfl Cache.holds_clear

/-- A run keeps the invariant. -/
theorem Sound.run (sound : Sound deployment state) {requests : List Request}
    (kept : deployment.snapshotHistory = true ∨ .refresh ∉ requests) :
    Sound deployment (run deployment state requests) := by
  induction requests generalizing state with
  | nil => exact sound
  | cons request rest ih =>
    refine ih (sound.handle ?_) ?_
    · exact kept.imp_right fun absent same => absent (by simp [same])
    · exact kept.imp_right fun absent member => absent (mem_cons_of_mem request member)

/-! ### What GET returns for a declared file -/

theorem aliasToActiveKey_eq {tables : List ServedTable}
    (unaliased : Unaliased deployment (tables.map legacyTablePath) key) :
    aliasToActiveKey deployment tables key = key := by
  unfold aliasToActiveKey
  split
  · rename_i aliases
    have none : (tables.find? fun table => atOrBelow table.legacyTablePath key) = none := by
      refine find?_eq_none.mpr fun table registered => ?_
      have apart := unaliased.1 aliases table.legacyTablePath (mem_map_of_mem registered)
      simp [apart]
    rw [none]
  · rfl

theorem normalizeIncomingKey_eq {tables : List ServedTable}
    (unaliased : Unaliased deployment (tables.map legacyTablePath) key) :
    normalizeIncomingKey deployment tables key = key := by
  unfold normalizeIncomingKey
  rw [aliasToActiveKey_eq unaliased]
  dsimp only
  split
  · rename_i rewritten
    obtain ⟨enabled, starts⟩ := Bool.and_eq_true_iff.mp rewritten
    rw [unaliased.2 enabled] at starts
    cases starts
  · rfl

theorem Declared.getObject {declared : DataFile} (sound : Sound deployment state)
    (declares : Declared deployment state declared) (now : Nat) (answer : Option ParquetFile) :
    ∃ file, (getObject deployment state now declared.objectKey answer).1 = .data file ∧
      Matches declared file := by
  obtain ⟨file, pinned, matching⟩ := declares.pinned
  refine ⟨file, ?_, matching⟩
  have active := aliasToActiveKey_eq declares.unaliased
  -- No metadata object has a key that ends like the key of a data file.
  have unresolved : resolveSnapshotForKey deployment state declared.objectKey = none := by
    unfold resolveSnapshotForKey
    rw [active]
    refine find?_eq_none.mpr fun snap version isKey => ?_
    obtain ⟨table, registered, version⟩ := mem_flatMap.mp version
    exact (sound.snapshots table registered snap version).keys _ isKey declares.parquet
  obtain ⟨found, isFound⟩ : ∃ found, getSplitByKey deployment state declared.objectKey =
      some found := by
    obtain ⟨table, registered, snap, version, split, member, sameKey⟩ := declares.known
    unfold getSplitByKey
    rw [active]
    refine Option.isSome_iff_exists.mp (find?_isSome.mpr ⟨(table.name, split), ?_, ?_⟩)
    · refine mem_append_right _ (mem_flatMap.mpr ⟨table, registered, ?_⟩)
      exact mem_map_of_mem (mem_flatMap.mpr ⟨snap, version, member⟩)
    · simp [isSplitKey, sameKey]
  unfold EagerServing.getObject
  rw [normalizeIncomingKey_eq declares.unaliased]
  simp only [unresolved, getData, isFound, getParquet, pinned]

theorem Sound.accurate (sound : Sound deployment state) : Accurate deployment state := by
  intro now key answer files served declared listed later laterAnswer
  have all := (sound.getObject now key answer).2 _ served
  exact (all declared listed).getObject sound later laterAnswer

end Steps

/-! ### Startup -/

section Started

variable {deployment : Deployment} {now : Nat}

/-- The file of the split is pinned, and the split says what it is. -/
def SplitPinned (state : ServerState) (split : SplitDescriptor) : Prop :=
  ∃ file, state.pinned split.objectKey = some file ∧ Matches (manifestEntry split) file

theorem SplitPinned.of_pinsOnly {keys : List String} {before after : ServerState}
    {split : SplitDescriptor} (pinned : SplitPinned before split)
    (only : PinsOnly keys before after) (apart : split.objectKey ∉ keys) :
    SplitPinned after split := by
  unfold SplitPinned
  rw [only.pinned _ apart]
  exact pinned

theorem materializeSplit_pinsOnly (generated : Option ParquetFile) (state : ServerState)
    (split : SplitDescriptor) :
    PinsOnly [split.objectKey] state (materializeSplit deployment now generated state split).2 := by
  have warm : PinsOnly [] state (warmParquet deployment state now split.objectKey).2 := by
    unfold warmParquet promote
    split <;> exact ⟨rfl, rfl, fun _ _ => rfl⟩
  unfold materializeSplit
  dsimp only
  split
  · refine warm.trans ⟨rfl, rfl, ?_⟩
    intro key apart
    exact Function.update_of_ne (by simpa using apart) _ _
  · exact ⟨warm.tables, warm.metadataCache, fun key _ => warm.pinned key (by simp)⟩

theorem materializeSplit_filled {generated : Option ParquetFile} {state : ServerState}
    {split filled : SplitDescriptor}
    (done : (materializeSplit deployment now generated state split).1 = some filled) :
    filled.objectKey = split.objectKey ∧
    SplitPinned (materializeSplit deployment now generated state split).2 filled := by
  unfold materializeSplit at done ⊢
  dsimp only at done ⊢
  split at done
  · rename_i file _
    obtain rfl : fillSplit deployment split file = filled := by simpa using done
    refine ⟨rfl, file, ?_, rfl, rfl⟩
    simp [pinParquet, durableWrite, fillSplit]
  · cases done

theorem materializeSplits_pinsOnly (generated : Int → Option ParquetFile) (state : ServerState)
    (splits : List SplitDescriptor) :
    PinsOnly (splits.map objectKey) state
      (materializeSplits deployment now generated state splits).2 := by
  induction splits generalizing state with
  | nil => exact ⟨rfl, rfl, fun _ _ => rfl⟩
  | cons split rest ih =>
    have first := @materializeSplit_pinsOnly deployment now (generated split.splitIndex) state split
    have both := first.trans (ih _)
    unfold materializeSplits
    split
    · rename_i filled next materialized
      rw [materialized] at both
      exact both
    · rename_i next materialized
      rw [materialized] at first both
      split
      · exact both
      · exact ⟨first.tables, first.metadataCache, fun key apart =>
          first.pinned key fun member => apart (mem_append_left _ member)⟩

theorem materializeSplits_filled {generated : Int → Option ParquetFile} {state : ServerState}
    {splits filled : List SplitDescriptor} (distinct : (splits.map objectKey).Nodup)
    (done : (materializeSplits deployment now generated state splits).1 = some filled) :
    filled.map objectKey = splits.map objectKey ∧
    ∀ split ∈ filled,
      SplitPinned (materializeSplits deployment now generated state splits).2 split := by
  induction splits generalizing state filled with
  | nil =>
    obtain rfl : [] = filled := by simpa [materializeSplits] using done
    exact ⟨rfl, by simp⟩
  | cons split rest ih =>
    obtain ⟨apart, distinctRest⟩ := nodup_cons.mp distinct
    unfold materializeSplits at done ⊢
    split at done
    · rename_i first next materialized
      have filledFirst := @materializeSplit_filled deployment now (generated split.splitIndex)
        state split first (by rw [materialized])
      rw [materialized] at filledFirst
      obtain ⟨others, doneRest, rfl⟩ := Option.map_eq_some_iff.mp done
      obtain ⟨sameKeys, pinnedRest⟩ := ih distinctRest doneRest
      have only := @materializeSplits_pinsOnly deployment now generated next rest
      refine ⟨by simp [filledFirst.1, sameKeys], ?_⟩
      intro other member
      rcases mem_cons.mp member with rfl | later
      · refine filledFirst.2.of_pinsOnly only ?_
        rwa [filledFirst.1]
      · exact pinnedRest other later
    · split at done <;> cases done

/-- The invariant of startup: the tables done so far are as they were built, with their
files pinned under keys that no pending table uses. -/
structure Started (deployment : Deployment) (paths : List String) (pending : List String)
    (state : ServerState) : Prop where
  uncached : state.metadataCache.entries = []
  single : ∀ table ∈ state.tables, table.earlier = []
  path : ∀ table ∈ state.tables, table.legacyTablePath ∈ paths
  unbuilt : ∀ table ∈ state.tables, table.current.metadataBytes = none ∧
    table.current.manifestListBytes = none ∧ table.current.manifestFileBytes = none
  keys : ∀ table ∈ state.tables, ∀ key, isMetadataKey table.current key = true →
    ending key ≠ ending ".parquet"
  splits : ∀ table ∈ state.tables, ∀ split ∈ table.current.splits, SplitPinned state split ∧
    split.objectKey ∉ pending ∧ ending split.objectKey = ending ".parquet" ∧
    Unaliased deployment paths split.objectKey

theorem Started.sound {paths pending : List String} {state : ServerState}
    (started : Started deployment paths pending state) : Sound deployment state := by
  constructor
  · intro table registered snap version
    obtain rfl : snap = table.current := by
      simpa [versions, started.single table registered] using version
    refine ⟨?_, ?_, started.keys table registered⟩
    · intro split member
      obtain ⟨pinned, _, parquet, unaliased⟩ := started.splits table registered split member
      refine ⟨parquet, ⟨table, registered, _, version, split, member, rfl⟩,
        ⟨?_, unaliased.2⟩, pinned⟩
      intro aliases path served
      obtain ⟨other, otherRegistered, rfl⟩ := mem_map.mp served
      exact unaliased.1 aliases _ (started.path other otherRegistered)
    · intro object built
      simp [started.unbuilt table registered] at built
  · intro entry stored
    simp [started.uncached] at stored

theorem map_objectKey_newSplits (table : TableDef) :
    (newSplits deployment table).map objectKey = dataKeys deployment table := by
  simp [newSplits, dataKeys]

theorem ending_of_mem_dataKeys {table : TableDef} (member : key ∈ dataKeys deployment table) :
    ending key = ending ".parquet" := by
  obtain ⟨index, _, rfl⟩ := mem_map.mp member
  exact ending_append (by decide)

/-- A step that pins files of pending tables only keeps what is done. -/
theorem Started.of_pinsOnly {paths pending later keys : List String} {before after : ServerState}
    (started : Started deployment paths pending before) (only : PinsOnly keys before after)
    (used : ∀ key ∈ keys, key ∈ pending) (fewer : ∀ key ∈ later, key ∈ pending) :
    Started deployment paths later after where
  uncached := by rw [only.metadataCache]; exact started.uncached
  single := by rw [only.tables]; exact started.single
  path := by rw [only.tables]; exact started.path
  unbuilt := by rw [only.tables]; exact started.unbuilt
  keys := by rw [only.tables]; exact started.keys
  splits := by
    rw [only.tables]
    intro table registered split member
    obtain ⟨pinned, apart, rest⟩ := started.splits table registered split member
    refine ⟨pinned.of_pinsOnly only fun member => apart (used _ member), ?_, rest⟩
    exact fun member => apart (fewer _ member)

/-- One more table is done. -/
theorem Started.register {paths pending : List String} {state : ServerState} {table : TableDef}
    {splits : List SplitDescriptor} {total : Int} (started : Started deployment paths pending state)
    (path : deployment.legacyTablePath table ∈ paths)
    (pinned : ∀ split ∈ splits, SplitPinned state split)
    (sameKeys : splits.map objectKey = dataKeys deployment table)
    (apart : ∀ key ∈ dataKeys deployment table, key ∉ pending)
    (unaliased : ∀ key ∈ dataKeys deployment table, Unaliased deployment paths key) :
    Started deployment paths pending { state with
      tables := state.tables ++ [{ buildTableSnapshot deployment table with
        current := { (buildTableSnapshot deployment table).current with
          splits, totalRecords := some total } }] } := by
  constructor
  · exact started.uncached
  all_goals
    intro other registered
    rcases mem_append.mp registered with earlier | newest
  · exact started.single other earlier
  · obtain rfl := mem_singleton.mp newest
    rfl
  · exact started.path other earlier
  · obtain rfl := mem_singleton.mp newest
    exact path
  · exact started.unbuilt other earlier
  · obtain rfl := mem_singleton.mp newest
    exact ⟨rfl, rfl, rfl⟩
  · exact started.keys other earlier
  · obtain rfl := mem_singleton.mp newest
    intro key isKey
    rcases isMetadataKey_iff.mp isKey with rfl | rfl | rfl | rfl
    · exact ending_json _
    · exact ending_text _
    · exact ending_avro _
    · exact ending_avro _
  · exact started.splits other earlier
  · obtain rfl := mem_singleton.mp newest
    intro split member
    have isKey : split.objectKey ∈ dataKeys deployment table := by
      rw [← sameKeys]
      exact mem_map_of_mem member
    exact ⟨pinned split member, apart _ isKey, ending_of_mem_dataKeys isKey, unaliased _ isKey⟩

theorem materializeTables_started {generated : String → Int → Option ParquetFile}
    {paths : List String} {tables : List TableDef} {state final : ServerState}
    (distinct : (tables.flatMap (dataKeys deployment)).Nodup)
    (unaliased : ∀ key ∈ tables.flatMap (dataKeys deployment), Unaliased deployment paths key)
    (inPaths : ∀ table ∈ tables, deployment.legacyTablePath table ∈ paths)
    (started : Started deployment paths (tables.flatMap (dataKeys deployment)) state)
    (done : materializeTables deployment now generated state
      (buildAllSnapshots deployment tables) = some final) :
    Started deployment paths [] final := by
  induction tables generalizing state with
  | nil =>
    obtain rfl : state = final := by simpa [buildAllSnapshots, materializeTables] using done
    exact started
  | cons table rest ih =>
    rw [flatMap_cons] at distinct unaliased started
    obtain ⟨distinctTable, distinctRest, disjoint⟩ := nodup_append.mp distinct
    have only := @materializeSplits_pinsOnly deployment now (generated table.name) state
      (newSplits deployment table)
    rw [map_objectKey_newSplits] at only
    have kept := @Started.of_pinsOnly _ _ _ (rest.flatMap (dataKeys deployment)) _ _ _ started only
      (fun key member => mem_append_left _ member)
      (fun key member => mem_append_right _ member)
    simp only [buildAllSnapshots, map_cons, materializeTables] at done
    split at done
    · rename_i splits after materialized
      have materializedSplits : materializeSplits deployment now (generated table.name) state
          (newSplits deployment table) = (some splits, after) := materialized
      rw [materializedSplits] at kept
      obtain ⟨sameKeys, pinned⟩ := @materializeSplits_filled deployment now (generated table.name)
        state (newSplits deployment table) splits
        (by rw [map_objectKey_newSplits]; exact distinctTable) (by rw [materializedSplits])
      rw [map_objectKey_newSplits] at sameKeys
      rw [materializedSplits] at pinned
      refine ih distinctRest
        (fun key member => unaliased key (mem_append_right _ member))
        (fun other member => inPaths other (mem_cons_of_mem table member)) ?_ done
      exact kept.register (inPaths table mem_cons_self) pinned sameKeys
        (fun key member later => disjoint key member key later rfl)
        (fun key member => unaliased key (mem_append_left _ member))
    · rename_i after materialized
      have materializedSplits : materializeSplits deployment now (generated table.name) state
          (newSplits deployment table) = (none, after) := materialized
      rw [materializedSplits] at kept
      split at done
      · exact ih distinctRest
          (fun key member => unaliased key (mem_append_right _ member))
          (fun other member => inPaths other (mem_cons_of_mem table member)) kept done
      · cases done

end Started

/-- From startup on, whatever GET, HEAD, LIST and refresh requests come in, the manifests
declare their data files as GET returns them, provided that a refresh keeps the history of
snapshots and that the data files have keys of their own. -/
theorem served_manifests_accurate {deployment : Deployment} {now : Nat}
    {runtimeTables : List TableDef} {disk store : String → Option ParquetFile}
    {generated : String → Int → Option ParquetFile} {state : ServerState}
    (started : startup deployment now runtimeTables disk store generated = some state)
    (apart : KeysApart deployment runtimeTables) (requests : List Request)
    (kept : deployment.snapshotHistory = true ∨ .refresh ∉ requests) :
    Accurate deployment (run deployment state requests) := by
  have sound : Sound deployment state := by
    refine Started.sound (materializeTables_started apart.distinct apart.unaliased
      (fun table member => mem_map_of_mem member) ?_ started)
    constructor <;> simp
  exact (sound.run kept).accurate

/-! ### One table with one split -/

def orders : TableDef := { name := "t", sourceTable := "s", schema := [], numSplits := 1 }

/-- Two rows in three bytes. -/
def ordersFile : ParquetFile := { rowCount := 2, bytes := [1, 2, 3] }

def ordersDeployment (snapshotHistory : Bool) : Deployment where
  settings := { dbUrl := "d", queryMaxRows := 10 }
  tables := [orders]
  bucket := "b"
  snapshotHistory := snapshotHistory
  metadataCacheTtl := 60
  parquetCacheTtl := 60
  parquetCacheMaxBytes := 1024
  activeTablePath table := "w/" ++ table.name
  legacyTablePath table := "w/" ++ table.name
  digest seed := ⟨seed.length, toString seed.length⟩
  sha256 file := toString file.size
  md5 file := toString file.size
  encodedLength object := 100 + 50 * object.files.length

/-- The state after startup. -/
def ordersStarted (snapshotHistory : Bool) : Option ServerState :=
  startup (ordersDeployment snapshotHistory) 0 [orders] (fun _ => none) (fun _ => none)
    fun _ _ => some ordersFile

theorem ordersStarted_isSome (snapshotHistory : Bool) :
    (ordersStarted snapshotHistory).isSome = true := by
  cases snapshotHistory <;> rfl

theorem orders_keysApart (snapshotHistory : Bool) :
    KeysApart (ordersDeployment snapshotHistory) [orders] := by
  constructor
  · cases snapshotHistory <;> decide +kernel
  · intro key _
    refine ⟨?_, ?_⟩ <;> intro enabled <;> cases enabled

/-- With history the manifest of the second version is served after a refresh, and it is
accurate. -/
theorem served_manifests_accurate_history :
    ∃ state, ordersStarted true = some state ∧
      (getObject (ordersDeployment true) (run (ordersDeployment true) state [.refresh]) 1
        "w/t/metadata/8-m2.avro" none).1 = .metadata (.manifestFile
          [{ objectKey := "w/t/data/split-0-58.parquet", recordCount := 2, fileSize := 3 }]) ∧
      Accurate (ordersDeployment true) (run (ordersDeployment true) state [.refresh]) := by
  have started := (Option.some_get (ordersStarted_isSome true)).symm
  refine ⟨_, started, by decide +kernel, ?_⟩
  exact served_manifests_accurate started (orders_keysApart true) [.refresh] (.inl rfl)

/-- Without history, a refresh leaves the data file in place and its manifest with the
placeholders. -/
theorem refreshed_manifest_inaccurate :
    ∃ state, ordersStarted false = some state ∧ KeysApart (ordersDeployment false) [orders] ∧
      ¬ Accurate (ordersDeployment false) (run (ordersDeployment false) state [.refresh]) := by
  refine ⟨_, (Option.some_get (ordersStarted_isSome false)).symm, orders_keysApart false, ?_⟩
  intro accurate
  obtain ⟨file, returned, matching⟩ := accurate 1 "w/t/metadata/58-m0.avro" none
    [{ objectKey := "w/t/data/split-0-58.parquet", recordCount := 100000, fileSize := 10485760 }]
    (by decide +kernel) _ mem_cons_self 1 none
  have pinned : file = ordersFile := by
    refine (Response.data.inj (.trans ?_ returned)).symm
    decide +kernel
  rw [pinned] at matching
  exact absurd matching (by unfold Matches; decide)

end ShortcutProxy.AccurateManifests
