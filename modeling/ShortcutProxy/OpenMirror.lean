import ShortcutProxy.Digest
import ShortcutProxy.JournaledPrograms
import ShortcutProxy.PathText
import ShortcutProxy.Records
import ShortcutProxy.SelfDelimitingCodes

/-!
# Open Mirroring

`publish_table` copies a source table into numbered files of a landing zone and keeps its
progress in a state file. In watermark mode it reads pages of rows behind a cursor; in
snapshot mode it compares the whole table with the keys and row hashes it saved. A batch is
first saved as pending, then landed, then committed, and a run that finds a pending batch
settles it before anything else. `publish_target` drops the tables that are no longer
configured, publishes the others, and records which tables it published.

The source database is given by the answers to the queries of one call. The files are those
of the state directory, by name, and the data files of the landing zone, by folder and number.
-/

namespace ShortcutProxy.OpenMirror

open Journaled Records

/-! ## Rows -/

/-- A column value. Values of types that are never computed with, such as timestamps and
decimals, are given by their text. -/
inductive Cell where
  | null
  | bool (value : Bool)
  | int (value : Int)
  | text (value : String)
  | other (written : String)
  deriving DecidableEq, Repr

/-- `str(value)`. -/
def Cell.str : Cell → String
  | .null => "None"
  | .bool true => "True"
  | .bool false => "False"
  | .int value => toString value
  | .text value => value
  | .other written => written

/-- `_canon`. -/
def canon : Cell → String
  | .null => "\x00"
  | value => value.str

/-- A row as a dictionary. -/
abbrev Row := List (String × Cell)

/-- `row.get(name)`. -/
def Row.get (row : Row) (name : String) : Cell := (row.lookup name).getD .null

/-- The values of a row in the published columns, as a data file holds them. -/
def published (columns : List String) (row : Row) : Row :=
  columns.map fun name => (name, row.get name)

/-! ## State -/

/-- `CommittedCursor`. A snapshot batch has no watermark. -/
structure Cursor where
  watermark : Cell := .null
  keys : List Cell := []
  deriving DecidableEq, Repr

/-- An entry of `keys`: the hash of a row and its key values. -/
structure KeyEntry where
  hash : String
  keys : List Cell
  deriving DecidableEq, Repr

/-- A data file of the landing zone: the folder of its table and its number. -/
structure BatchPath where
  folder : String
  index : Nat
  deriving DecidableEq, Repr

/-- `RowMarker`. -/
inductive RowMarker where
  | insert
  | update
  | delete
  | upsert
  deriving DecidableEq, Repr

/-- The contents of a data file. Without markers all rows are inserts. -/
structure Payload where
  rows : List Row
  markers : Option (List RowMarker)
  deriving DecidableEq, Repr

/-- `PendingBatch`. -/
structure PendingBatch where
  prior : Option Cursor
  next : Cursor
  path : BatchPath
  rowCount : Nat
  contentHash : String
  initial : Bool := false
  snapshotKeys : Option (List (String × KeyEntry)) := none
  payloadPath : Option String := none
  deriving DecidableEq, Repr

/-- The tracking strategies that a state file may name. -/
inductive Strategy where
  | watermark
  | snapshot
  | initial
  deriving DecidableEq, Repr

/-- `PublishState`. -/
structure PublishState where
  strategy : Strategy := .snapshot
  projectionFingerprint : Option String := none
  initialized : Bool := false
  committed : Option Cursor := none
  pending : Option PendingBatch := none
  keys : List (String × KeyEntry) := []
  deriving DecidableEq, Repr

/-- The outcomes of `load_state`. -/
inductive StateStatus where
  | missing
  | valid
  | corrupt
  | unreadable
  | incompatible
  deriving DecidableEq, Repr

/-- A file of the state directory. `unusable` is one that does not load as a state. -/
inductive StateFile where
  | state (record : PublishState)
  | unusable (status : StateStatus) (error : String)
  | payload (contents : Payload)
  | tables (entries : List (String × String))
  deriving DecidableEq, Repr

/-- The durable data: the data files and the other files of the landing zone, and the state
directory. -/
structure Store where
  batches : List (BatchPath × Payload) := []
  metadata : List String := []
  files : Table String StateFile := ∅

/-- The accesses to durable data. Reads of the state directory are recorded too. -/
inductive Access where
  | readState (name : String)
  | wroteState (name : String) (file : StateFile)
  | removedState (name : String)
  | landed (path : BatchPath) (payload : Payload)
  | wroteMetadata (path : String)
  | removedTree (folder : String)

/-- The effect of one access. -/
def Store.apply (store : Store) : Access → Store
  | .readState _ => store
  | .wroteState name file => { store with files := assign store.files name (some file) }
  | .removedState name => { store with files := assign store.files name none }
  | .landed path payload =>
    { store with
      batches := store.batches.filter (fun entry => entry.1 ≠ path) ++ [(path, payload)] }
  | .wroteMetadata path => { store with metadata := path :: store.metadata }
  | .removedTree folder =>
    { store with
      batches := store.batches.filter fun entry => !PathText.atOrBelow folder entry.1.folder
      metadata := store.metadata.filter fun path => !PathText.atOrBelow folder path }

/-! ## Configuration -/

/-- `VALID_TABLE_MODES`. -/
inductive Mode where
  | incremental
  | watermark
  | snapshot
  | initial
  deriving DecidableEq, Repr

/-- `OpenMirrorTableTarget`, as far as publishing reads it. The fingerprint is that of the
configured columns, if there are any. -/
structure TableTarget where
  name : String
  sourceTable : String
  targetTable : String
  keyColumn : String
  schema : Option String := none
  mode : Option Mode := none
  watermarkColumn : Option String := none
  enabled : Bool := true
  fingerprint : Option String := none
  deriving DecidableEq, Repr

/-- `OpenMirrorTarget`, as far as publishing reads it. -/
structure Target where
  id : String
  landingZoneRoot : String
  enabled : Bool := true
  tables : List TableTarget := []
  deriving DecidableEq, Repr

/-- `key_columns`. -/
def TableTarget.keyColumns (table : TableTarget) : List String :=
  ((table.keyColumn.toList.splitOn ',').map fun part =>
    PathText.strip (.ofList part)).filter fun name => name ≠ ""

/-- `OpenMirrorTableTarget.strategy`. -/
def TableTarget.strategy (table : TableTarget) : Strategy :=
  match table.mode with
  | some .watermark => .watermark
  | some .snapshot => .snapshot
  | _ => if table.watermarkColumn.getD "" = "" then .snapshot else .watermark

/-- `_strategy`. -/
def strategyOf (table : TableTarget) : Mode → Strategy
  | .watermark => .watermark
  | .snapshot => .snapshot
  | _ => table.strategy

/-- What the model is given of the Python library and of the process configuration. Digests
separate what they are applied to. -/
structure Environment where
  digest : Digest
  payloadDigest : Payload → String
  payloadDigest_injective : Function.Injective payloadDigest
  isAlnum : Char → Bool
  reread : String → Cell
  defaultMode : Mode := .incremental
  openMirrorMaxRows : Nat := 0
  queryMaxRows : Nat := 0
  maxPagesPerCycle : Nat := 0
  maxRowsPerCycle : Nat := 0

/-- A value as a mark for its type and a text. -/
def Cell.marked : Cell → Char × String
  | .null => ('n', "")
  | .bool value => ('b', if value then "True" else "False")
  | .int value => ('i', value.repr)
  | .text value => ('t', value)
  | .other written => ('o', written)

theorem Cell.marked_injective : Function.Injective Cell.marked := by
  intro first second same
  cases first <;> cases second <;> simp only [Cell.marked, Prod.mk.injEq] at same
  case null.null => rfl
  case bool.bool left right => cases left <;> cases right <;> simp_all
  case int.int left right => rw [Int.repr_injective same.2]
  case text.text left right => rw [same.2]
  case other.other left right => rw [same.2]
  all_goals exact absurd same.1 (by decide)

/-- The letter for a marker. -/
def RowMarker.letter : RowMarker → Char
  | .insert => 'i'
  | .update => 'u'
  | .delete => 'd'
  | .upsert => 's'

theorem RowMarker.letter_injective : Function.Injective RowMarker.letter := by
  intro first second same
  cases first <;> cases second <;> first | rfl | exact absurd same (by decide)

/-- The contents of a data file in characters. -/
def Payload.code : Code Payload :=
  (((Code.text.pair ((Code.char.pair .text).through Cell.marked Cell.marked_injective)).list.list).pair
    (Code.char.through RowMarker.letter RowMarker.letter_injective).list.option).through
    (fun payload => (payload.rows, payload.markers)) fun first second same => by
      cases first
      cases second
      simpa using same

/-- An environment with readable digests, for closed examples. -/
def Environment.readable : Environment where
  digest := .escaped
  payloadDigest payload := .ofList (Payload.code.write payload)
  payloadDigest_injective := Payload.code.write_injective
  isAlnum := Char.isAlphanum
  reread := .text
  queryMaxRows := 1000

/-- A key value as it is read back from the state file into the column of a delete row. -/
def Environment.restored (env : Environment) : Cell → Cell
  | .other written => env.reread written
  | value => value

/-! ## File names -/

/-- `_slug`. -/
def slug (env : Environment) (text : String) : String :=
  let name := PathText.trim (fun char => char = '_')
    (.ofList (text.toList.map fun char => if env.isAlnum char then char else '_'))
  if name = "" then "x" else name

/-- The name of the state file, from the identity of a table. -/
def stateFileName (env : Environment) (targetId schema targetTable : String) : String :=
  slug env targetId ++ "__" ++ slug env schema ++ "__" ++ slug env targetTable ++ ".json"

/-- `state_file_path`, within the state directory. -/
def stateFilePath (env : Environment) (target : Target) (table : TableTarget) : String :=
  stateFileName env target.id (table.schema.getD "") table.targetTable

/-- `_pending_payload_path`. -/
def pendingPayloadPath (env : Environment) (target : Target) (table : TableTarget) : String :=
  stateFilePath env target table ++ ".pending.parquet"

/-- `target_manifest_path`, within the state directory. -/
def targetManifestPath (env : Environment) (target : Target) : String :=
  slug env target.id ++ "__tables.json"

/-- The text without white space and then without slashes around it. -/
def stripSlashes (text : String) : String :=
  PathText.trim (fun char => char = '/') (PathText.strip text)

/-- `table_relative_path`; it raises without a table. -/
def tableRelativePath (targetTable schema : String) : Option String :=
  let table := stripSlashes targetTable
  if table = "" then none
  else
    let folder := stripSlashes schema
    if folder = "" then some table else some (folder ++ ".schema/" ++ table)

/-! ## Changes -/

/-- `"|".join(_canon(row.get(name)) for name in names)`. -/
def joined (names : List String) (row : Row) : String :=
  "|".intercalate (names.map fun name => canon (row.get name))

/-- `key_string`. -/
def keyString (keyColumns : List String) (row : Row) : String := joined keyColumns row

/-- `row_hash`. -/
def rowHash (env : Environment) (columns : List String) (row : Row) : String :=
  env.digest.hash (joined columns row)

/-- Set an entry of a dictionary. A new entry goes to the end. -/
def dictSet {α : Type} (dict : List (String × α)) (key : String) (value : α) :
    List (String × α) :=
  if dict.any (fun entry => entry.1 = key) then
    dict.map fun entry => if entry.1 = key then (key, value) else entry
  else dict ++ [(key, value)]

/-- The keys of `build_state_from_rows`. -/
def buildKeys (env : Environment) (columns keyColumns : List String) (rows : List Row) :
    List (String × KeyEntry) :=
  rows.foldl (fun keys row => dictSet keys (keyString keyColumns row)
    ⟨rowHash env columns row, keyColumns.map row.get⟩) []

/-- The row that deletes a key: the key columns only. -/
def deleteRow (keyColumns : List String) (keys : List Cell) : Row :=
  keyColumns.zipIdx.map fun entry => (entry.1, keys.getD entry.2 .null)

/-- The changes that `compute_changes` finds for one row of the source. -/
def changeOf (env : Environment) (columns keyColumns : List String)
    (previous : List (String × KeyEntry)) (row : Row) : Option (RowMarker × Row) :=
  match previous.lookup (keyString keyColumns row) with
  | none => some (.insert, row)
  | some entry => if entry.hash ≠ rowHash env columns row then some (.update, row) else none

/-- `compute_changes`: the marked rows of the batch. The keys of deleted rows come from the
state file. -/
def computeChanges (env : Environment) (columns keyColumns : List String)
    (previous : List (String × KeyEntry)) (rows : List Row) : List (RowMarker × Row) :=
  rows.filterMap (changeOf env columns keyColumns previous) ++
    (previous.filter fun entry =>
      decide (entry.1 ∉ rows.map (keyString keyColumns))).map fun entry =>
        (.delete, deleteRow keyColumns (entry.2.keys.map env.restored))

/-! ## Queries -/

/-- The columns that a call resolved: their names and fingerprint, the names of the private
control columns, and whether a column has random tokens. -/
structure Projection where
  columns : List String
  control : List String := []
  fingerprint : String
  randomTokens : Bool := false
  deriving DecidableEq, Repr

/-- The source as one call sees it: the columns, and the table at each of its queries. -/
structure Source where
  projection : Except String Projection
  content : Nat → Except String (List Row)

/-- `<` of the database, for integers. Other values compare by their text. -/
def Cell.less : Cell → Cell → Bool
  | .int left, .int right => left < right
  | .null, _ => false
  | _, .null => false
  | left, right => decide (left.str < right.str)

/-- `=` of the database. -/
def Cell.same : Cell → Cell → Bool
  | .null, _ => false
  | _, .null => false
  | left, right => left = right

/-- `_key_ladder`: the keys of the row are greater than the last ones, in the order of the
columns. -/
def keyLadder : List (Cell × Cell) → Bool
  | [] => false
  | (last, value) :: rest => Cell.less last value || (Cell.same value last && keyLadder rest)

/-- The condition of `_select_since_sql`. -/
def since (watermarkColumn : String) (keyColumns : List String) (cursor : Cursor) (row : Row) :
    Bool :=
  Cell.less cursor.watermark (row.get watermarkColumn) ||
    (if cursor.keys.length = keyColumns.length then
      Cell.same (row.get watermarkColumn) cursor.watermark &&
        keyLadder (cursor.keys.zip (keyColumns.map row.get))
    else false)

/-- The order of `ORDER BY` over the watermark and the keys. -/
def ordered (names : List String) (first second : Row) : Bool :=
  !keyLadder ((names.map second.get).zip (names.map first.get))

/-- `_read_rows_watermark`: the first rows behind the cursor. -/
def readRowsWatermark (watermarkColumn : String) (keyColumns : List String) (cursor : Option Cursor)
    (limit : Nat) (content : List Row) : List Row :=
  let behind := match cursor with
    | none => content
    | some last =>
      if last.watermark = Cell.null then content
      else content.filter (since watermarkColumn keyColumns last)
  (behind.mergeSort (ordered (watermarkColumn :: keyColumns))).take limit

/-! ## Publishing a table -/

/-- The exceptions that leave a publication. -/
inductive MirrorError where
  | valueError (message : String)
  | stateSafety (message : String)
  | pendingState (message : String)
  | notLeading
  | osError (message : String)
  | source (message : String)
  | stillRunning
  deriving DecidableEq, Repr

/-- The places at which leadership is checked. -/
inductive Checkpoint where
  | foundPending
  | beforeReplay
  | afterReplay
  | emptySource
  | page (number : Nat)
  | pending (number : Nat)
  | landing (number : Nat)
  | committing (number : Nat)
  | drops
  | table (index : Nat)
  | record
  deriving DecidableEq, Repr

/-- The arguments of one call, and what the call meets: which leadership checks pass and
whether a landing-zone write can be verified. `fuel` bounds the pages of the call. -/
structure PublishCall where
  mode : Option Mode := none
  dryRun : Bool := false
  maxRows : Option Nat := none
  leads : Checkpoint → Bool := fun _ => true
  verified : BatchPath → Bool := fun _ => true
  fuel : Nat := 0

/-- `_effective_max_rows`. -/
def effectiveMaxRows (env : Environment) (call : PublishCall) : Option Nat :=
  match call.maxRows with
  | some limit => some limit
  | none => if env.openMirrorMaxRows = 0 then none else some env.openMirrorMaxRows

/-- A text as messages quote it. -/
def quotedText (text : String) : String := "'" ++ text ++ "'"

/-- A list of names as messages print it. -/
def quotedNames (names : List String) : String :=
  "[" ++ ", ".intercalate (names.map quotedText) ++ "]"

/-- The word for a status. -/
def StateStatus.text : StateStatus → String
  | .missing => "missing"
  | .valid => "valid"
  | .corrupt => "corrupt"
  | .unreadable => "unreadable"
  | .incompatible => "incompatible"

/-- The word for a strategy. -/
def Strategy.text : Strategy → String
  | .watermark => "watermark"
  | .snapshot => "snapshot"
  | .initial => "initial"

/-- A publishing program. -/
abbrev Publish := Program Store Access MirrorError

/-- The action of a `PublishResult`. -/
inductive Action where
  | noop
  | initial
  | incremental
  | recovery
  | dryRun
  deriving DecidableEq, Repr

/-- `PublishResult`, as far as the model needs it. -/
structure PublishResult where
  action : Action
  rows : Nat := 0
  path : Option BatchPath := none
  recovery : Option String := none
  deriving DecidableEq, Repr

/-- Make one access. -/
def access (effect : Access) : Publish Unit := .perform .apply effect

/-- `leadership_check()`. -/
def checkLeadership (call : PublishCall) (place : Checkpoint) : Publish Unit :=
  if call.leads place then pure () else .raise .notLeading

/-- The state that a file of the state directory loads as. The record of published tables
has no version, so it loads as an empty state of version 1. -/
def loadedState : Option StateFile → StateStatus × Option PublishState
  | none => (.missing, none)
  | some (.state record) => (.valid, some record)
  | some (.unusable status _) => (status, none)
  | some (.payload _) => (.corrupt, none)
  | some (.tables _) => (.valid, some { strategy := .snapshot, initialized := true })

/-- The error that `load_state` reports with a file that does not load. -/
def loadError : Option StateFile → String
  | some (.unusable _ error) => error
  | _ => ""

/-- The message of `_load_valid_state`. -/
def refusedLoad (name : String) (file : Option StateFile) : String :=
  "Open Mirror state is " ++ (loadedState file).1.text ++ " at " ++ name ++ ": " ++
    loadError file ++ "; refusing an implicit full load"

/-- `load_state`. -/
def loadState (name : String) : Publish (StateStatus × Option PublishState) := do
  access (.readState name)
  .read fun store => loadedState store.files[name]?

/-- `_load_valid_state`. -/
def loadValidState (name : String) : Publish (StateStatus × Option PublishState) := do
  let loaded ← loadState name
  if loaded.1 = .missing ∨ loaded.1 = .valid then pure loaded
  else do
    let message ← .read fun store => refusedLoad name store.files[name]?
    .raise (.stateSafety message)

/-- `save_state`. -/
def saveState (name : String) (state : PublishState) : Publish Unit :=
  access (.wroteState name (.state state))

/-- The state after the pending batch was committed. -/
def committedState (state : PublishState) (pending : PendingBatch) : PublishState :=
  { state with
    committed := some pending.next
    initialized := true
    keys := pending.snapshotKeys.getD state.keys
    pending := none }

/-- Remove the payload of a batch, if it has one. -/
def removePayload : Option String → Publish Unit
  | none => pure ()
  | some path => access (.removedState path)

/-- Write the payload of a batch, if it has a path. -/
def writePayload (payload : Payload) : Option String → Publish Unit
  | none => pure ()
  | some path => access (.wroteState path (.payload payload))

/-- `_finalize_pending`. -/
def finalizePending (name : String) (state : PublishState) : Publish PublishState :=
  match state.pending with
  | none => pure state
  | some pending => do
    saveState name (committedState state pending)
    removePayload pending.payloadPath
    pure (committedState state pending)

/-- The path of a data file, with its number in twenty digits. -/
def BatchPath.text (path : BatchPath) : String :=
  let digits := toString path.index
  path.folder ++ "/" ++ .ofList (.replicate (20 - digits.length) '0') ++ digits ++
    ".parquet"

/-- `write_batch_at`. -/
def writeBatchAt (call : PublishCall) (path : BatchPath) (payload : Payload) : Publish Unit := do
  access (.landed path payload)
  if call.verified path then pure ()
  else .raise (.osError
    ("landing-zone write could not be verified at " ++ quotedText path.text))

/-- `next_file_index`. -/
def nextFileIndex (folder : String) (store : Store) : Nat :=
  (store.batches.foldl (fun highest entry =>
    if entry.1.folder = folder then max highest entry.1.index else highest) 0) + 1

/-- `reserve_batch_path`. -/
def reserveBatchPath (folder : String) : Publish BatchPath := do
  let index ← .read (nextFileIndex folder)
  if index < 10 ^ 20 then pure ⟨folder, index⟩
  else .raise (.valueError "file index exceeds the 20-digit landing-zone limit")

/-- What one call is about: the table, its file names and its folder. -/
structure Publication where
  env : Environment
  call : PublishCall
  table : TableTarget
  stateName : String
  payloadName : String
  folder : Option String

variable (publication : Publication) (projection : Projection)

/-- The folder of the table; without one the call raises. -/
def Publication.folderOf : Publish String :=
  match publication.folder with
  | some folder => pure folder
  | none => .raise (.valueError "target_table must be non-empty")

/-- `ensure_partner_events` and `ensure_table_metadata`, with the folder of the table. -/
def ensureMetadata : Publish String := do
  access (.wroteMetadata "_partnerEvents.json")
  let folder ← publication.folderOf
  let present ← .read fun store => decide (folder ++ "/_metadata.json" ∈ store.metadata)
  if present then pure folder
  else if publication.table.keyColumns = [] then
    .raise (.valueError "build_table_metadata: at least one key column is required")
  else do
    access (.wroteMetadata (folder ++ "/_metadata.json"))
    pure folder

/-- Save a new batch as pending. A batch with random tokens is saved beside the state. -/
def savePending (number : Nat) (state : PublishState) (batch : PendingBatch)
    (payload : Payload) : Publish PublishState := do
  let payloadPath := if projection.randomTokens then some publication.payloadName else none
  writePayload payload payloadPath
  let next := { state with pending := some { batch with payloadPath := payloadPath } }
  checkLeadership publication.call (.pending number)
  saveState publication.stateName next
  pure next

/-- Land the pending batch and commit it. -/
def landPending (number : Nat) (path : BatchPath) (payload : Payload)
    (state : PublishState) : Publish PublishState := do
  checkLeadership publication.call (.landing number)
  writeBatchAt publication.call path payload
  checkLeadership publication.call (.committing number)
  finalizePending publication.stateName state

/-- `_next_cursor`. -/
def nextCursor (watermarkColumn : String) (keyColumns : List String) (row : Row) :
    Except MirrorError Cursor :=
  if .null ∈ (watermarkColumn :: keyColumns).map row.get then
    .error (.valueError
      ("cursor columns must be non-null: " ++ quotedNames (watermarkColumn :: keyColumns)))
  else .ok ⟨row.get watermarkColumn, keyColumns.map row.get⟩

/-- The variables of the loop in `_publish_watermark`. -/
structure WatermarkLoop where
  state : PublishState
  cursor : Option Cursor
  initial : Bool
  pages : Nat := 0
  scanned : Nat := 0
  published : Nat := 0
  lastPath : Option BatchPath := none

/-- The part of one page that writes. -/
def landPage (loop : WatermarkLoop) (rows : List Row) (next : Cursor) : Publish WatermarkLoop := do
  checkLeadership publication.call (.page loop.pages)
  let folder ← ensureMetadata publication
  let payload : Payload :=
    ⟨rows.map (published projection.columns),
      if loop.initial ∧ loop.published = 0 then none
      else some (rows.map fun _ => .upsert)⟩
  let digest := publication.env.payloadDigest payload
  match loop.state.pending with
  | some pending =>
    if pending.rowCount ≠ rows.length ∨ pending.contentHash ≠ digest ∨
        pending.next.watermark ≠ next.watermark ∨ pending.next.keys ≠ next.keys then
      .raise (.pendingState
        ("pending batch at " ++ publication.stateName ++ " no longer matches its source page"))
    else do
      let state ← landPending publication loop.pages pending.path payload loop.state
      pure { loop with state := state, cursor := state.committed, lastPath := some pending.path }
  | none => do
    let path ← reserveBatchPath folder
    let saved ← savePending publication projection loop.pages loop.state
      { prior := loop.cursor, next := next, path := path, rowCount := rows.length
        contentHash := digest, initial := loop.initial && loop.published == 0 } payload
    let state ← landPending publication loop.pages path payload saved
    pure { loop with state := state, cursor := state.committed, lastPath := some path }

/-- Land a page, or only move the cursor in a dry run. -/
def takePage (loop : WatermarkLoop) (rows : List Row) (next : Cursor) : Publish WatermarkLoop :=
  if publication.call.dryRun then pure { loop with cursor := some next }
  else landPage publication projection loop rows next

/-- The loop in `_publish_watermark`. -/
def watermarkLoop (publication : Publication) (source : Source) (projection : Projection)
    (watermarkColumn : String) (pageSize : Nat) :
    Nat → WatermarkLoop → Publish WatermarkLoop
  | 0, _ => .raise .stillRunning
  | fuel + 1, loop => do
    let content ← .ofExcept ((source.content loop.pages).mapError .source)
    let rows := readRowsWatermark watermarkColumn publication.table.keyColumns loop.cursor
      pageSize content
    let read := { loop with pages := loop.pages + 1, scanned := loop.scanned + rows.length }
    match rows.getLast? with
    | none =>
      if read.initial ∧ publication.call.dryRun = false then do
        checkLeadership publication.call .emptySource
        let state := { read.state with initialized := true, strategy := .watermark }
        saveState publication.stateName state
        pure { read with state := state }
      else pure read
    | some last => do
      let next ← .ofExcept
        (nextCursor watermarkColumn publication.table.keyColumns last)
      let landed ← takePage publication projection read rows next
      let after :=
        { landed with
          published := landed.published + rows.length
          initial := false
          state := { landed.state with pending := none } }
      if rows.length < pageSize then pure after
      else if publication.env.maxPagesPerCycle ≠ 0 ∧
          publication.env.maxPagesPerCycle ≤ after.pages then pure after
      else if publication.env.maxRowsPerCycle ≠ 0 ∧
          publication.env.maxRowsPerCycle ≤ after.scanned then pure after
      else watermarkLoop publication source projection watermarkColumn pageSize fuel after

/-- `_publish_watermark`. -/
def publishWatermark (source : Source) (projection : Projection)
    (state : PublishState) : Publish PublishResult :=
  let names := projection.columns ++ projection.control
  let absent (written : String) := .valueError ("watermark_column " ++ written ++
    " is not a column of " ++ quotedText publication.table.sourceTable)
  match publication.table.watermarkColumn with
  | none => .raise (absent "None")
  | some watermarkColumn =>
    let missing := publication.table.keyColumns.filter fun key => key ∉ names
    if watermarkColumn = "" ∨ watermarkColumn ∉ names then
      .raise (absent (quotedText watermarkColumn))
    else if missing ≠ [] then
      .raise (.valueError
        ("key columns are not present in source: " ++ quotedNames missing))
    else do
      let pageSize := match effectiveMaxRows publication.env publication.call with
        | some limit => if limit = 0 then publication.env.queryMaxRows else limit
        | none => publication.env.queryMaxRows
      let cursor := match state.pending with
        | some pending => pending.prior
        | none => state.committed
      let final ← watermarkLoop publication source projection watermarkColumn pageSize
        publication.call.fuel
        { state := state, cursor := cursor, initial := !state.initialized }
      pure
        { action := if publication.call.dryRun then .dryRun
            else if state.initialized = false then .initial
            else if final.published = 0 then .noop else .incremental
          rows := final.published
          path := final.lastPath
          recovery := state.pending.map fun _ => "retry_missing_file" }

/-- The marked rows of a snapshot batch and the keys to save. The first batch has no markers. -/
def snapshotBatch (state : PublishState) (rows : List Row) : Payload × List (String × KeyEntry) :=
  let keys := buildKeys publication.env projection.columns publication.table.keyColumns rows
  if state.initialized = false then (⟨rows.map (published projection.columns), none⟩, keys)
  else
    let changes := computeChanges publication.env projection.columns publication.table.keyColumns
      state.keys rows
    (⟨changes.map fun change => published projection.columns change.2,
      some (changes.map Prod.fst)⟩, keys)

/-- The part of `_publish_snapshot` that saves, lands and commits the batch. -/
def commitSnapshot (folder : String) (batch : Payload × List (String × KeyEntry))
    (state : PublishState) :
    Publish (PublishState × BatchPath) :=
  let digest := publication.env.payloadDigest batch.1
  match state.pending with
  | some pending =>
    if pending.contentHash ≠ digest ∨ pending.rowCount ≠ batch.1.rows.length then
      .raise (.pendingState ("pending snapshot batch at " ++ publication.stateName ++
        " no longer matches source"))
    else do
      let next ← landPending publication 0 pending.path batch.1 state
      pure (next, pending.path)
  | none => do
    let path ← reserveBatchPath folder
    let saved ← savePending publication projection 0 state
      { prior := state.committed, next := {}, path := path
        rowCount := batch.1.rows.length, contentHash := digest
        initial := !state.initialized, snapshotKeys := some batch.2 } batch.1
    let next ← landPending publication 0 path batch.1 saved
    pure (next, path)

/-- `_publish_snapshot`. -/
def publishSnapshot (source : Source) (projection : Projection)
    (state : PublishState) : Publish PublishResult := do
  let content ← .ofExcept ((source.content 0).mapError .source)
  let rows := content.take
    ((effectiveMaxRows publication.env publication.call).getD publication.env.queryMaxRows)
  let batch := snapshotBatch publication projection state rows
  let recovery := state.pending.map fun _ => "retry_missing_file"
  if publication.call.dryRun then
    pure { action := .dryRun, rows := batch.1.rows.length, recovery := recovery }
  else if state.initialized ∧ batch.1.rows = [] then pure { action := .noop }
  else do
    checkLeadership publication.call (.page 0)
    let folder ← ensureMetadata publication
    let committed ← commitSnapshot publication projection folder batch state
    saveState publication.stateName { committed.1 with strategy := .snapshot }
    pure
      { action := if state.initialized then .incremental else .initial
        rows := batch.1.rows.length
        path := some committed.2
        recovery := recovery }

/-- The error of `_read_pending_payload`. -/
def otherPayload (path : String) : MirrorError :=
  .pendingState ("prepared Open Mirror payload at " ++ quotedText path ++
    " does not match pending digest")

/-- Commit a pending batch whose data file has landed. -/
def commitLanded (state : PublishState) :
    Publish (Option PublishResult) := do
  checkLeadership publication.call .foundPending
  let _ ← finalizePending publication.stateName state
  pure (some { action := .recovery, recovery := some "finalized_existing_file" })

/-- Land a pending batch from its payload and commit it. -/
def replayPayload (state : PublishState) (path : BatchPath)
    (payload : Payload) : Publish (Option PublishResult) := do
  checkLeadership publication.call .beforeReplay
  writeBatchAt publication.call path payload
  checkLeadership publication.call .afterReplay
  let _ ← finalizePending publication.stateName state
  pure (some { action := .recovery, recovery := some "replayed_prepared_payload" })

/-- What follows once a file was found at the payload path. -/
def settleFrom (state : PublishState) (pending : PendingBatch)
    (payloadPath : String) : Option StateFile → Publish (Option PublishResult)
  | none => pure none
  | some contents =>
    if payloadPath ≠ publication.payloadName then
      .raise (.stateSafety ("pending payload path at " ++ publication.stateName ++
        " is outside the expected state path"))
    else match contents with
      | .payload payload =>
        if publication.env.payloadDigest payload ≠ pending.contentHash then
          .raise (otherPayload payloadPath)
        else replayPayload publication state pending.path payload
      | _ => .raise (otherPayload payloadPath)

/-- Look for the payload of a pending batch. -/
def settlePayload (state : PublishState) (pending : PendingBatch)
    (payloadPath : String) : Publish (Option PublishResult) := do
  access (.readState payloadPath)
  let file ← .read fun store => store.files[payloadPath]?
  settleFrom publication state pending payloadPath file

/-- The data file of a pending batch has landed. -/
def Landed (store : Store) (pending : PendingBatch) : Prop :=
  ∃ entry ∈ store.batches, entry.1 = pending.path

instance (store : Store) (pending : PendingBatch) : Decidable (Landed store pending) :=
  inferInstanceAs (Decidable (∃ entry ∈ store.batches, entry.1 = pending.path))

/-- The part of `publish_table` that settles a pending batch whose file or payload is
there. -/
def settlePending (state : PublishState) :
    Publish (Option PublishResult) :=
  match state.pending with
  | none => pure none
  | some pending => do
    let landed ← .read fun store => decide (Landed store pending)
    if landed = true then commitLanded publication state
    else match pending.payloadPath with
      | none => pure none
      | some payloadPath => settlePayload publication state pending payloadPath

/-- The error for a projection that is not the one of the saved state. -/
def projectionChanged (name : String) : MirrorError :=
  .stateSafety ("Open Mirror projection changed at " ++ name ++
    "; explicitly reset or request an initial load")

/-- The checks of `publish_table` on a state that it loaded, before it looks at the pending
batch. -/
def stateUsable (name : String) (table : TableTarget) (mode : Mode) (state : PublishState) :
    Option MirrorError :=
  if state.strategy ≠ strategyOf table mode ∧ mode ≠ .initial then
    some (.stateSafety ("tracking strategy changed from " ++ quotedText state.strategy.text ++
      " to " ++ quotedText (strategyOf table mode).text ++ " at " ++ name ++
      "; explicitly reset or request an initial load"))
  else match table.fingerprint with
    | none => none
    | some configured =>
      match state.projectionFingerprint with
      | none =>
        if state.initialized then
          some (.stateSafety ("Open Mirror state at " ++ name ++
            " has no projection fingerprint; explicitly reset or request an initial load"))
        else none
      | some saved =>
        if saved ≠ configured ∧ mode ≠ .initial then some (projectionChanged name) else none

/-- The state that `publish_table` goes on with when no pending batch was settled. -/
def startingState (table : TableTarget) (mode : Mode) : Option PublishState → PublishState
  | none => { strategy := strategyOf table mode }
  | some state =>
    if mode = .initial ∧ state.pending = none then { strategy := strategyOf table mode } else state

/-- `publish_table` after the pending batch, if any, could not be settled on the spot. -/
def publishFresh (source : Source) (mode : Mode)
    (loaded : Option PublishState) : Publish PublishResult := do
  let state := startingState publication.table mode loaded
  let projection ← .ofExcept (source.projection.mapError .source)
  if state.projectionFingerprint ≠ none ∧
      state.projectionFingerprint ≠ some projection.fingerprint ∧ mode ≠ .initial then
    .raise (projectionChanged publication.stateName)
  else
    let current := { state with projectionFingerprint := some projection.fingerprint }
    if strategyOf publication.table mode = .watermark then
      publishWatermark publication source projection current
    else publishSnapshot publication source projection current

/-- The data of a call on one table of a target. -/
def publicationOf (env : Environment) (call : PublishCall) (target : Target) (table : TableTarget) :
    Publication where
  env := env
  call := call
  table := table
  stateName := stateFilePath env target table
  payloadName := pendingPayloadPath env target table
  folder := tableRelativePath table.targetTable (table.schema.getD "")

section PublicationOf

variable (env : Environment) (call : PublishCall) (target : Target) (table : TableTarget)

@[simp] theorem publicationOf_folder : (publicationOf env call target table).folder =
    tableRelativePath table.targetTable (table.schema.getD "") := by
  rw [publicationOf]

@[simp] theorem publicationOf_stateName : (publicationOf env call target table).stateName =
    stateFilePath env target table := by
  rw [publicationOf]

@[simp] theorem publicationOf_payloadName : (publicationOf env call target table).payloadName =
    pendingPayloadPath env target table := by
  rw [publicationOf]

@[simp] theorem publicationOf_call : (publicationOf env call target table).call = call := by
  rw [publicationOf]

@[simp] theorem publicationOf_table : (publicationOf env call target table).table = table := by
  rw [publicationOf]

end PublicationOf

/-- `_effective_mode`. -/
def effectiveMode (env : Environment) (call : PublishCall) (table : TableTarget) : Mode :=
  (call.mode.or table.mode).getD env.defaultMode

/-- `publish_table` after the state was loaded. -/
def publishLoaded (source : Source) (mode : Mode) :
    Option PublishState → Publish PublishResult
  | none => publishFresh publication source mode none
  | some state =>
    match stateUsable publication.stateName publication.table mode state with
    | some failure => .raise failure
    | none => do
      let settled ← settlePending publication state
      match settled with
      | some result => pure result
      | none => publishFresh publication source mode (some state)

/-- `publish_table`. -/
def publishTable (env : Environment) (source : Source) (call : PublishCall) (target : Target)
    (table : TableTarget) : Publish PublishResult := do
  let loaded ← loadValidState (stateFilePath env target table)
  publishLoaded (publicationOf env call target table) source (effectiveMode env call table) loaded.2

end ShortcutProxy.OpenMirror
