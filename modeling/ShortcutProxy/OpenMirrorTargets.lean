import ShortcutProxy.OpenMirrorEffects

/-!
# Targets of Open Mirroring

The loader of the target configuration, `publish_target` with the reconciliation of dropped
tables, and the operator's reset of a table. A drop removes the folder of a table that is
recorded as published and is not configured any more, together with its state file.
-/

namespace ShortcutProxy.OpenMirror

open Journaled Records

/-! ## The configuration loader -/

/-- A table entry of the configuration file. The columns are left out. -/
structure RawTable where
  name : Option String := none
  sourceTable : Option String := none
  keyColumn : Option String := none
  targetTable : Option String := none
  schema : Option String := none
  mode : Option String := none
  watermarkColumn : Option String := none
  enabled : Bool := true
  deriving DecidableEq, Repr

/-- `str(value or default)`. -/
def textOr (value : Option String) (fallback : String) : String :=
  match value with
  | none => fallback
  | some text => if text = "" then fallback else text

/-- A configured text, unless it is empty. -/
def textIfAny (value : Option String) : Option String :=
  match value with
  | none => none
  | some text => if text = "" then none else some (PathText.strip text)

/-- The mode that a table entry names. -/
def modeOf (name : String) (value : Option String) : Except String (Option Mode) :=
  match value with
  | none => .ok none
  | some text =>
    let mode := PathText.lower (PathText.strip text)
    if mode = "" then .ok none
    else if mode = "incremental" then .ok (some .incremental)
    else if mode = "watermark" then .ok (some .watermark)
    else if mode = "snapshot" then .ok (some .snapshot)
    else if mode = "initial" then .ok (some .initial)
    else .error ("open mirror table " ++ quotedText name ++ ": unsupported mode '" ++ mode ++
      "'; expected one of ['incremental', 'initial', 'snapshot', 'watermark']")

/-- `_table_from_dict`. -/
def tableFromDict (raw : RawTable) : Except String TableTarget :=
  let name := PathText.strip (textOr raw.name "")
  let sourceTable := PathText.strip (textOr raw.sourceTable "")
  let keyColumn := PathText.strip (textOr raw.keyColumn "")
  let watermarkColumn := textIfAny raw.watermarkColumn
  if name = "" then .error "open mirror table: 'name' must be non-empty"
  else if sourceTable = "" then
    .error ("open mirror table " ++ quotedText name ++ ": 'source_table' must be non-empty")
  else if keyColumn = "" then
    .error ("open mirror table " ++ quotedText name ++ ": 'key_column' must be non-empty")
  else match modeOf name raw.mode with
    | .error message => .error message
    | .ok mode =>
      if mode = some .watermark ∧ (watermarkColumn.getD "") = "" then
        .error ("open mirror table " ++ quotedText name ++ ": mode 'watermark' requires watermark_column")
      else .ok
        { name := name
          sourceTable := sourceTable
          targetTable := PathText.strip (textOr raw.targetTable name)
          keyColumn := keyColumn
          schema := textIfAny raw.schema
          mode := mode
          watermarkColumn := watermarkColumn
          enabled := raw.enabled }

/-- A target entry of the configuration file, as far as publishing reads it. -/
structure RawTarget where
  id : Option String := none
  landingZoneRoot : Option String := none
  enabled : Bool := true
  tables : List RawTable := []
  deriving DecidableEq, Repr

/-- `target_from_dict`. -/
def targetFromDict (raw : RawTarget) : Except String Target :=
  let id := PathText.strip (textOr raw.id "")
  let root := PathText.strip (textOr raw.landingZoneRoot "")
  if id = "" then .error "open mirror target: 'id' must be non-empty"
  else if root = "" then
    .error ("open mirror target " ++ quotedText id ++ ": 'landing_zone_root' must be non-empty")
  else match raw.tables.mapM tableFromDict with
    | .error message => .error message
    | .ok tables =>
      .ok { id := id, landingZoneRoot := root, enabled := raw.enabled, tables := tables }

/-- `load_targets`: entries that do not load are skipped. -/
def loadTargets (raws : List RawTarget) : List Target :=
  raws.filterMap fun raw => (targetFromDict raw).toOption

/-! ## Resetting and dropping -/

variable (env : Environment) (call : TargetCall)

/-- The reset of a table: the state is read for the answer and then deleted. -/
def resetTable (target : Target) (table : TableTarget) : Publish Unit := do
  let _ ← loadState (stateFilePath env target table)
  access (.removedState (stateFilePath env target table))

/-- What becomes of a folder that is to be removed. The local backend ignores errors, the
other one raises its own. -/
inductive Removal where
  | removed
  | ignored
  | raised (message : String)
  deriving DecidableEq, Repr

/-- `remove_tree`. -/
def removeTree (removal : String → Removal) (folder : String) : Publish Unit :=
  match removal folder with
  | .raised message => .raise (.osError message)
  | .ignored => pure ()
  | .removed => access (.removedTree folder)

/-- `drop_table` and `delete_state` for a table that is not configured any more. -/
def dropTable (removal : String → Removal) (target : Target)
    (schema targetTable : String) : Publish Unit :=
  match tableRelativePath targetTable schema with
  | none => .raise (.valueError "target_table must be non-empty")
  | some folder => do
    removeTree removal folder
    access (.removedState (stateFileName env target.id schema targetTable))

/-- The folder that a dry run reports as dropped. -/
def reportDrop (schema targetTable : String) : Publish Unit :=
  match tableRelativePath targetTable schema with
  | none => .raise (.valueError "target_table must be non-empty")
  | some _ => pure ()

/-- The entries that a file loads as by `load_published_tables`. -/
def publishedTables : Option StateFile → List (String × String)
  | some (.tables entries) => entries
  | _ => []

/-- `(schema, target_table)` of a table. -/
def TableTarget.entry (table : TableTarget) : String × String :=
  (table.schema.getD "", table.targetTable)

/-- The recorded tables that are to be dropped. -/
def staleEntries (target : Target) (entries : List (String × String)) : List (String × String) :=
  entries.filter fun entry => entry.2 ≠ "" ∧ entry ∉ target.tables.map TableTarget.entry

/-- The arguments of a `publish_target` call, and what it meets. What the call on a table
meets is given by the position of the table. -/
structure TargetCall where
  mode : Option Mode := none
  dryRun : Bool := false
  maxRows : Option Nat := none
  reconcile : Bool := true
  opens : Bool := true
  leads : Checkpoint → Bool := fun _ => true
  removal : String → Removal := fun _ => .removed
  tables : Nat → PublishCall := fun _ => {}
  sources : Nat → Source

/-- The call on the table at a position. -/
def TargetCall.tableCall (index : Nat) : PublishCall :=
  { call.tables index with mode := call.mode, dryRun := call.dryRun, maxRows := call.maxRows }

/-- `leadership_check()` of the target. -/
def TargetCall.check (place : Checkpoint) : Publish Unit :=
  if call.leads place then pure () else .raise .notLeading

/-- Drop a stale table; a dry run only reports it. -/
def dropEntry (target : Target) (entry : String × String) : Publish Unit :=
  if call.dryRun then reportDrop entry.1 entry.2
  else dropTable env call.removal target entry.1 entry.2

/-- Drop the stale tables one after the other. -/
def dropAll (env : Environment) (call : TargetCall) (target : Target) :
    List (String × String) → Publish Unit
  | [] => pure ()
  | entry :: rest => do
    dropEntry env call target entry
    dropAll env call target rest

/-- `_reconcile_drops`. -/
def reconcileDrops (target : Target) : Publish Unit := do
  access (.readState (targetManifestPath env target))
  let entries ← .read fun store =>
    publishedTables store.files[targetManifestPath env target]?
  dropAll env call target (staleEntries target entries)

/-- One table of the loop in `publish_target`. A failure is reported with the state of the
table, which is read again. -/
def publishOne (target : Target) (index : Nat) (table : TableTarget) : Publish Unit :=
  .recoverWith
    (do
      call.check (.table index)
      let _ ← publishTable env (call.sources index) (call.tableCall index) target table
      pure ())
    (fun _ => do
      let _ ← loadState (stateFilePath env target table)
      pure ())

/-- The loop over the tables of a target. -/
def publishTables (env : Environment) (call : TargetCall) (target : Target) :
    List (TableTarget × Nat) → Publish Unit
  | [] => pure ()
  | (table, index) :: rest => do
    if table.enabled then publishOne env call target index table else pure ()
    publishTables env call target rest

/-- The tables that `publish_target` records. -/
def recordedTables (target : Target) : List (String × String) :=
  (target.tables.filter TableTarget.enabled).map TableTarget.entry

/-- The drops of `publish_target`; a failure is logged. -/
def attemptDrops (target : Target) : Publish Unit :=
  if call.reconcile then
    .recoverWith
      (do
        call.check .drops
        reconcileDrops env call target)
      (fun _ => pure ())
  else pure ()

/-- `publish_target`. -/
def publishTarget (target : Target) : Publish Unit :=
  if target.enabled = false ∨ call.opens = false then pure ()
  else do
    attemptDrops env call target
    publishTables env call target target.tables.zipIdx
    if call.dryRun then pure ()
    else do
      call.check .record
      access (.wroteState (targetManifestPath env target) (.tables (recordedTables target)))

end ShortcutProxy.OpenMirror
