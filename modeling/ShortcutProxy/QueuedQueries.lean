import ShortcutProxy.Contract
import ShortcutProxy.SplitPartition

/-!
# The query of a queued split

`materialize_for_key` flattens a planned split into a task, and an Agent builds a table
and a split from the task and asks for their query. The task names the key column of the
table, not the column that planning chose for the split, and it has none of the row and
byte targets of the table. So the Agent splits by the column that `_pk_column` chooses
and reads at most as many rows as the global targets allow.

A column travels as a dictionary without its empty entries; it is kept here as a column.
-/

namespace ShortcutProxy.MaterializeWorker

open Contract (KeyRange MaterializeTask)
open Dialects Fallible KeyRanges KeyStatistics Relational SplitPartition SplitPlanner SplitQueries
  TableConfig

/-- A task with the columns and the split strategy of its table. -/
structure DispatchedTask extends MaterializeTask where
  schema : List ColumnDef
  strategy : SplitStrategy

/-- `_task_range`. -/
def taskRange (split : PlannedSplit) : Except String (Option KeyRange) :=
  match split.keyLo, split.keyHi with
  | none, none => .ok none
  | some (.integer lo), some (.integer hi) => .ok (some ⟨lo, hi⟩)
  | _, _ => .error "distributed materialization requires integer split bounds"

/-- The task that `materialize_for_key` makes for a split. What does not come from the table
and the split stands in `base`. -/
def taskOf (settings : Settings) (base : MaterializeTask) (table : TableDef) (count : Nat)
    (split : PlannedSplit) : Except String DispatchedTask := do
  return {
    toMaterializeTask := { base with
      table := table.name
      splitIndex := split.splitIndex
      sourceTable := table.sourceTable
      range := ← taskRange split
      connectionId := table.connectionId
      numSplits := count
      keyColumn := table.keyColumn.getD "" }
    schema := table.schema
    strategy := table.effectiveSplitStrategy settings }

/-- The task that the Agent reads from the dictionary of a task. -/
def transported (task : DispatchedTask) : DispatchedTask :=
  { task with toMaterializeTask := task.toMaterializeTask.fromDict }

/-- `_columns`. A transform is built again from its entries; its checks leave open only whether
a random token has no key reference or an empty one, which nothing reads. -/
def workerColumn (column : ColumnDef) : ColumnDef :=
  { column with source := given column.source }

/-- `_split`, after its checks of the connection and of the generation. -/
def workerSplit (task : DispatchedTask) : PlannedSplit where
  splitIndex := task.splitIndex
  numSplits := max 1 task.numSplits
  table :=
    { name := task.table
      sourceTable := task.sourceTable
      schema := task.schema.map workerColumn
      numSplits := max 1 task.numSplits
      keyColumn := given (some task.keyColumn)
      connectionId := if task.connectionId = "" then "default" else task.connectionId
      splitStrategy := some task.strategy }
  splitKeyColumn := given (some task.keyColumn)
  keyLo := task.range.map fun range => .integer range.lo
  keyHi := task.range.map fun range => .integer range.hi

/-- The query that the Agent builds for a split of the Manager. -/
def workerQuery (settings : Settings) (base : MaterializeTask) (split : PlannedSplit)
    (count : Nat) :
    Except String (Statement × Params) := do
  buildSplitQuery settings (workerSplit (transported (← taskOf settings base split.table count split)))

/-! ## The split of the Agent -/

/-- What the Agent's split has of the Manager's. -/
structure Rebuilt (split worker : PlannedSplit) : Prop where
  splitIndex : worker.splitIndex = split.splitIndex
  numSplits : worker.numSplits = split.numSplits
  keyLo : worker.keyLo = split.keyLo
  keyHi : worker.keyHi = split.keyHi
  splitKeyColumn : worker.splitKeyColumn = given split.table.keyColumn
  schema : worker.table.schema = split.table.schema.map workerColumn
  keyColumn : worker.table.keyColumn = given split.table.keyColumn
  sourceTable : worker.table.sourceTable = split.table.sourceTable
  url : ∀ settings : Settings, settings.effectiveDbUrl worker.table.connectionId =
    settings.effectiveDbUrl split.table.connectionId

theorem given_getD (name : Option String) : (given name).getD "" = name.getD "" := by
  cases name with
  | none => rfl
  | some text => by_cases empty : text = "" <;> simp [given, empty, Option.filter]

theorem given_some_getD (name : Option String) : given (some (name.getD "")) = given name := by
  cases name <;> simp [given, Option.filter]

theorem workerColumn_sourceName (column : ColumnDef) :
    (workerColumn column).sourceName = column.sourceName := by
  cases source : column.source <;> simp [workerColumn, ColumnDef.sourceName, given, source]
  split <;> simp_all

theorem named_workerColumn (key : String) (column : ColumnDef) :
    named key (workerColumn column) = named key column := by
  rw [named, workerColumn_sourceName]
  rfl

variable {settings : Settings}

section Rebuilding

variable {split worker : PlannedSplit} (rebuilt : Rebuilt split worker)

include rebuilt

theorem Rebuilt.capabilities :
    settings.capabilitiesFor worker.table = settings.capabilitiesFor split.table := by
  rw [Settings.capabilitiesFor, rebuilt.url, Settings.capabilitiesFor]

theorem Rebuilt.dialect : settings.dialectFor worker.table = settings.dialectFor split.table := by
  rw [Settings.dialectFor, rebuilt.url, Settings.dialectFor]

theorem Rebuilt.explicit : requireExplicitSplitKey settings worker.table =
    requireExplicitSplitKey settings split.table := by
  simp only [requireExplicitSplitKey, rebuilt.capabilities, rebuilt.keyColumn, given_getD,
    rebuilt.schema, List.any_map, Function.comp_def, named_workerColumn, ne_eq, List.map_eq_nil_iff]

theorem Rebuilt.type (key : String) : columnType worker.table key = columnType split.table key := by
  simp only [columnType, rebuilt.schema, List.find?_map, Function.comp_def, workerColumn_sourceName,
    Option.map_map]
  rfl

theorem Rebuilt.rendered :
    renderProjections settings worker.table = renderProjections settings split.table := by
  unfold renderProjections
  rw [rebuilt.schema, List.zipIdx_map, List.mapM_map, rebuilt.dialect]
  congr 1
  funext column
  have transform : queryTransform settings worker.table (workerColumn column.1) =
      queryTransform settings split.table column.1 := by
    simp only [queryTransform, leftToArrow, rebuilt.capabilities, workerColumn]
  simp only [Function.comp_apply, Prod.map, transform, renderProjection, workerColumn_sourceName]
  rfl

/-- The Agent splits by the column that `_pk_column` chooses. -/
theorem Rebuilt.key {chosen : Option String}
    (explicit : requireExplicitSplitKey settings split.table = .ok chosen) :
    splitKey settings worker = pkColumn settings split.table := by
  have found : (worker.table.schema.find? fun column =>
        !column.nullable && column.icebergType.isInteger) =
      (split.table.schema.find? fun column =>
        !column.nullable && column.icebergType.isInteger).map workerColumn := by
    rw [rebuilt.schema, List.find?_map]
    rfl
  have twice : given (given split.table.keyColumn) = given split.table.keyColumn := by
    rw [given, given, Option.filter_filter]
    simp
  simp only [splitKey, pkColumn, rebuilt.explicit, explicit, rebuilt.splitKeyColumn,
    rebuilt.keyColumn, twice, found]
  cases given split.table.keyColumn with
  | some key => rfl
  | none =>
    cases split.table.schema.find? fun column =>
      !column.nullable && column.icebergType.isInteger with
    | some column => rfl
    | none =>
      rw [rebuilt.schema]
      cases split.table.schema <;> rfl

/-- A named key that planning requires is the one that the table has. -/
theorem Rebuilt.checked {chosen : Option String} {key : String}
    (explicit : requireExplicitSplitKey settings split.table = .ok chosen) :
    checkSplitKey settings worker.table key = checkSplitKey settings split.table key := by
  have differs : (settings.capabilitiesFor split.table).requiresExplicitSplitKey = true ∧
        worker.table.keyColumn ≠ some key ↔
      (settings.capabilitiesFor split.table).requiresExplicitSplitKey = true ∧
        split.table.keyColumn ≠ some key := by
    refine and_congr_right fun required => ?_
    rw [rebuilt.keyColumn]
    cases named : split.table.keyColumn with
    | none => rfl
    | some name =>
      rw [given_some]
      rintro rfl
      simp [requireExplicitSplitKey, required, named, strip] at explicit
  simp only [checkSplitKey, rebuilt.capabilities, differs, rebuilt.schema, List.any_map,
    Function.comp_def, named_workerColumn, ne_eq, List.map_eq_nil_iff]
  rfl

/-- The statement is the Manager's, and so are the bind values but for the row cap. -/
theorem Rebuilt.statement (key : String) (projection : List Projection) :
    (splitStatement settings worker key projection).1 =
        (splitStatement settings split key projection).1 ∧
      (worker.table.effectiveMaxRows settings = split.table.effectiveMaxRows settings →
        splitStatement settings worker key projection =
          splitStatement settings split key projection) := by
  unfold splitStatement
  simp only [rebuilt.dialect, rebuilt.type, rebuilt.keyLo, rebuilt.keyHi, rebuilt.sourceTable,
    rebuilt.numSplits, rebuilt.splitIndex]
  split
  · exact ⟨rfl, fun same => by rw [same]⟩
  · split <;> exact ⟨rfl, fun same => by rw [same]⟩

end Rebuilding

/-- The statement shows the key. -/
theorem key_eq_of_statement {split : PlannedSplit} {key other : String}
    {projection others : List Projection}
    (same : (splitStatement settings split key projection).1 =
      (splitStatement settings split other others).1) : key = other := by
  have selects := congrArg Statement.select same
  unfold splitStatement at selects
  dsimp only at selects
  split at selects
  · exact Expr.column.inj (congrArg Select.orderBy selects)
  · split at selects <;> split at selects <;> simp_all [buildSelect, buildSelectRowNumber]

theorem params_max_rows (split : PlannedSplit) (key : String) (projection : List Projection)
    (further : List (String × Value)) :
    paramsOf ((splitStatement settings split key projection).2 ++ further) "max_rows" =
      .integer (split.table.effectiveMaxRows settings) := by
  unfold splitStatement
  dsimp only
  split <;> rfl

/-- The row cap of a table without targets of its own. -/
def globalMaxRows (settings : Settings) (table : TableDef) : Int :=
  { table with
    splitTargetRows := none
    splitTargetBytes := none
    splitEstimatedBytesPerRow := none }.effectiveMaxRows settings

theorem exists_rebuilt (settings : Settings) (base : MaterializeTask) {split : PlannedSplit}
    {count : Nat} (positive : 0 < count) (counted : split.numSplits = count)
    {range : Option KeyRange} (integral : taskRange split = .ok range) :
    ∃ worker, workerQuery settings base split count = buildSplitQuery settings worker ∧
      Rebuilt split worker ∧
      worker.table.effectiveMaxRows settings = globalMaxRows settings split.table := by
  obtain ⟨low, high⟩ : (range.map fun ends => .integer ends.lo) = split.keyLo ∧
      (range.map fun ends => .integer ends.hi) = split.keyHi := by
    unfold taskRange at integral
    split at integral <;> cases integral <;> simp_all
  -- the default connection is sent under its name
  have connection : ∀ settings : Settings, settings.connection
      (if split.table.connectionId = "" then "default" else split.table.connectionId) =
        settings.connection split.table.connectionId := by
    intro settings
    by_cases empty : split.table.connectionId = "" <;> simp [Settings.connection, empty]
  have sent : (if split.table.connectionId = "" then "default" else split.table.connectionId) ≠ ""
      := by split <;> simp_all
  unfold workerQuery taskOf
  rw [integral]
  refine ⟨_, rfl, ⟨rfl, ?_, low, high, given_some_getD _, rfl, given_some_getD _, rfl, ?_⟩, ?_⟩
  · simp only [workerSplit, transported, MaterializeTask.fromDict, counted]
    split <;> omega
  · intro settings
    simp only [workerSplit, transported, MaterializeTask.fromDict, if_neg sent,
      Settings.effectiveDbUrl, connection]
  · simp only [workerSplit, transported, MaterializeTask.fromDict, if_neg sent, globalMaxRows,
      TableDef.effectiveMaxRows, Settings.effectiveQueryMaxRows, connection]
    rfl

/-- The Agent builds the query of the Manager exactly when the column that `_pk_column` chooses
is the key of the split, and the table's targets do not change the row cap. -/
theorem worker_query_eq_iff (settings : Settings) (base : MaterializeTask) (split : PlannedSplit)
    (count : Nat) (positive : 0 < count) (counted : split.numSplits = count)
    (range : Option KeyRange) (integral : taskRange split = .ok range) (query : Statement × Params)
    (built : buildSplitQuery settings split = .ok query) :
    workerQuery settings base split count = .ok query ↔
      pkColumn settings split.table = splitKey settings split ∧
        globalMaxRows settings split.table = split.table.effectiveMaxRows settings := by
  obtain ⟨worker, sent, rebuilt, cap⟩ := exists_rebuilt settings base positive counted integral
  obtain ⟨chosen, key, rendered, explicit, keyed, checked, projected, rfl⟩ := built_iff.mp built
  rw [sent, ← cap, ← rebuilt.key explicit, keyed, built_iff]
  constructor
  · rintro ⟨_, other, again, _, own, _, projectedAgain, same⟩
    rw [rebuilt.rendered, projected] at projectedAgain
    obtain rfl := Except.ok.inj projectedAgain
    obtain ⟨statements, params⟩ := Prod.mk.inj same
    rw [(rebuilt.statement other _).1] at statements
    obtain rfl := key_eq_of_statement statements
    have caps := congrFun params "max_rows"
    rw [params_max_rows, params_max_rows] at caps
    exact ⟨own, (Value.integer.inj caps).symm⟩
  · rintro ⟨own, caps⟩
    refine ⟨chosen, key, rendered, ?_, own, ?_, ?_, ?_⟩
    · rw [rebuilt.explicit, explicit]
    · rw [rebuilt.checked explicit, checked]
    · rw [rebuilt.rendered, projected]
    · rw [(rebuilt.statement key _).2 caps]

def queuedTask : MaterializeTask :=
  { table := "t", epoch := 1, splitIndex := 0, sourceTable := "t", outputKey := "t/data/0" }

theorem worker_query_of_keyed_split :
    ∃ query, buildSplitQuery plainSettings (plainSplit keyedTable 3 none 1) = .ok query ∧
      workerQuery plainSettings queuedTask (plainSplit keyedTable 3 none 1) 3 = .ok query := by
  have succeeds : (buildSplitQuery plainSettings (plainSplit keyedTable 3 none 1)).isOk = true := by
    decide +kernel
  cases built : buildSplitQuery plainSettings (plainSplit keyedTable 3 none 1) with
  | error failure => rw [built] at succeeds; cases succeeds
  | ok query =>
    exact ⟨query, rfl, (worker_query_eq_iff plainSettings queuedTask _ 3 (by decide) rfl none rfl
      query built).mpr (by decide +kernel)⟩

/-- A table whose row target is above the global one. -/
def wideTable : TableDef := { keyedTable with splitTargetRows := some 200000 }

/-- Its one planned split, when the keys are 1 to 4. -/
def wideSplit : PlannedSplit :=
  { plainSplit wideTable 1 (some "k") 0 with keyLo := some (.integer 1), keyHi := some (.integer 5) }

/-- The Manager reads up to 200000 rows of this split, the Agent up to 100000. -/
theorem worker_query_caps_wide_split :
    planRangesForSnapshot plainSettings (fun _ _ => answering .integer 4 [1, 2, 3, 4]) wideTable
      (freshSplits wideTable 1) = .ok (true, [wideSplit]) ∧
    (buildSplitQuery plainSettings wideSplit).map (fun query => query.2 "max_rows") =
      .ok (.integer 200000) ∧
    (workerQuery plainSettings queuedTask wideSplit 1).map (fun query => query.2 "max_rows") =
      .ok (.integer 100000) := by
  decide +kernel

end ShortcutProxy.MaterializeWorker
