import ShortcutProxy.SplitQueries

/-!
# Column transforms on the way to Parquet

A column with a transform must not reach a client as it is. Flavors that can replace
its values in SQL do so in the projection of the split query. For the others the
operator may allow an Arrow step: the planner strips the transform from the query, the
plain value crosses into the proxy, and whoever writes the Parquet file has to apply
the transform to the rows.

Five code paths write Parquet files: startup, deferred materialization, queue tasks,
the freshness refresh and the regeneration in `get_object`. Two of them take the Arrow
step. The module models all five on symbolic values, where a token records its
transform, and says exactly when a file holds no plain value of a transformed column.
-/

namespace ShortcutProxy.Tokenization

open Dialects Fallible Relational SplitPlanner SplitQueries TableConfig List

/-! ## Validation -/

section Validation

variable (settings : Settings) (table : TableDef)

/-- The problems that `validate_config` reports for one transformed column. -/
def columnProblems (column : ColumnDef) (transform : ColumnTransform) : List String :=
  let caps := settings.capabilitiesFor table
  let subject := "Table " ++ quotedText table.name ++ ": "
  let backend := caps.tokenizationBackend transform.kind settings.tokenizationFallback
  let contentBased := settings.autoRefresh && (settings.refreshStrategy = .contentHash ||
    (settings.refreshStrategy = .auto && settings.refreshAllowFullPull))
  (match table.keyColumn with
    | some key => if named key column then
        [subject ++ "split key " ++ quotedText key ++ " cannot have a column transform."] else []
    | none => []) ++
  match transform.kind with
  | .deterministicHash =>
    (if backend = .none then [subject ++ "deterministic_hash is not supported for dialect " ++
      quotedText caps.flavor.name ++ "."] else []) ++
    (if settings.tokenizationKey (transform.keyRef.getD "") = none then
      [subject ++ missingTokenizationKey (transform.keyRef.getD "")] else [])
  | .randomToken =>
    (if backend = .none then [subject ++ "random_token is not supported for dialect " ++
      quotedText caps.flavor.name ++ "."] else []) ++
    (if contentBased then
      [subject ++ "random_token is incompatible with content-based auto-refresh."] else []) ++
    (if settings.materializeMode = .virtual then
      [subject ++ "random_token is incompatible with MATERIALIZE_MODE=virtual, which " ++
        "regenerates each split on demand and requires byte-identical output every time; " ++
        "random_token deliberately produces a new value on every regeneration. Use a " ++
        "deterministic transform (deterministic_hash) for this column, or switch " ++
        "MATERIALIZE_MODE to 'eager' or 'lazy'."] else [])

/-- The problems that `validate_config` reports for the transforms of a table. -/
def transformProblems : List String :=
  table.schema.flatMap fun column =>
    match column.transform with
    | some transform => columnProblems settings table column transform
    | none => []

end Validation

/-! ## Rows on the way -/

/-- A value on its way to Parquet. A token records the transform that made it. -/
inductive Cell where
  | null
  | plain (value : Value)
  | token (transform : ColumnTransform) (inner : Cell)
  deriving DecidableEq, Repr

/-- A tokenizer: NULL stays NULL. -/
def Cell.tokenized (transform : ColumnTransform) : Cell → Cell
  | .null => .null
  | cell => .token transform cell

/-- The cell holds nothing, or a token of the transform. -/
def Cell.Transformed (transform : ColumnTransform) : Cell → Prop
  | .null => True
  | .plain _ => False
  | .token applied _ => applied = transform

/-- A value as the driver returns it. -/
def Cell.ofValue : Value → Cell
  | .null => .null
  | value => .plain value

/-- A row of a query result or of a record batch: its values by column name, in order. -/
abbrev ResultRow := List (String × Cell)

/-- `row.get(name)`; a name that occurs twice keeps its last value. -/
def ResultRow.get (row : ResultRow) (name : String) : Cell := (row.reverse.lookup name).getD .null

/-- The value that the query returns for a projected column. -/
def projectedCell (projection : Projection) (row : Row) : Cell :=
  match projection.transform with
  | some transform => (Cell.ofValue (row projection.source)).tokenized transform
  | none => Cell.ofValue (row projection.source)

/-- The row that the query returns for a source row. -/
def resultRow (statement : Statement) (row : Row) : ResultRow :=
  statement.projection.map fun projection => (projection.output, projectedCell projection row)

/-! ## The Arrow step -/

section Arrow

variable (settings : Settings) (table : TableDef)

/-- A column as the Arrow step takes it. A transformed column is read under its output
name, and it keeps its transform only if the query has not applied it. -/
def arrowColumn (column : ColumnDef) : ColumnDef :=
  match column.transform with
  | none => column
  | some transform =>
    if leftToArrow settings table transform then { column with source := some column.name }
    else { column with source := some column.name, transform := none, textual := by simp }

/-- `arrow_fallback_columns`. -/
def arrowFallbackColumns : List ColumnDef := table.schema.map (arrowColumn settings table)

/-- One column of `tokenize_batch`: the source column of every row, tokenized if the
column has a transform. A hash needs its key as soon as there is a value to hash. -/
def tokenizeColumn (column : ColumnDef) (row : ResultRow) : Except String (String × Cell) :=
  if (row.map Prod.fst).contains column.sourceName = false then
    .error ("source column " ++ quotedText column.sourceName ++ " for output " ++
      quotedText column.name ++ " is not in the source table")
  else
    let cell := row.get column.sourceName
    match column.transform with
    | none => .ok (column.name, cell)
    | some transform =>
      if transform.kind = .deterministicHash ∧ cell ≠ .null ∧
          settings.tokenizationKey (transform.keyRef.getD "") = none then
        .error (missingTokenizationKey (transform.keyRef.getD ""))
      else .ok (column.name, cell.tokenized transform)

/-- `_apply_arrow_fallback`: nothing to do without rows or without a transform that is left
to Arrow. -/
def applyArrowFallback (rows : List ResultRow) : Except String (List ResultRow) :=
  let columns := arrowFallbackColumns settings table
  if columns.any (fun column => column.transform.isSome) = false then .ok rows
  else rows.mapM fun row => columns.mapM fun column => tokenizeColumn settings column row

end Arrow

/-! ## Parquet files -/

/-- The rows of a Parquet file, each value with its column. -/
abbrev ParquetRows := List (List (ColumnDef × Cell))

/-- `rows_to_parquet`. The Arrow schema cannot look up a name that occurs twice. -/
def rowsToParquet (schema : List ColumnDef) (rows : List ResultRow) : Except String ParquetRows :=
  if (schema.map ColumnDef.name).Nodup then
    .ok (rows.map fun row => schema.map fun column => (column, row.get column.name))
  else .error "Column does not exist in schema"

/-- The code paths that write Parquet files. -/
inductive Producer where
  | startup
  | deferred
  | queued
  | refresh
  | regeneration
  deriving DecidableEq, Repr

/-- The paths through `_materialize_split_once` take the Arrow step. `_materialize` at
startup, `materialize_table` of the refresh and `get_object` hand the rows of the query
to the Parquet writer as they are. -/
def Producer.takesArrowStep : Producer → Bool
  | .deferred | .queued => true
  | .startup | .refresh | .regeneration => false

/-- One batch of rows that the query selected, as the path hands it on. -/
def transferred (settings : Settings) (producer : Producer) (table : TableDef)
    (statement : Statement) (batch : List Row) : Except String (List ResultRow) :=
  let rows := batch.map (resultRow statement)
  if producer.takesArrowStep then applyArrowFallback settings table rows else .ok rows

/-- The Parquet file of a split, from the batches of rows that its query selects. Without
streaming there is one batch. -/
def produce (settings : Settings) (producer : Producer) (split : PlannedSplit)
    (batches : List (List Row)) : Except String ParquetRows := do
  let (statement, _) ← buildSplitQuery settings split
  let rows ← batches.mapM (transferred settings producer split.table statement)
  rowsToParquet split.table.schema rows.flatten

/-- No value of a column with a transform is in the file as it is. -/
def NoPlainValue (file : ParquetRows) : Prop :=
  ∀ row ∈ file, ∀ entry ∈ row, ∀ transform, entry.1.transform = some transform →
    entry.2.Transformed transform

/-! ## What reaches the file -/

@[simp] theorem Cell.transformed_tokenized (transform : ColumnTransform) (cell : Cell) :
    (cell.tokenized transform).Transformed transform := by
  cases cell <;> simp [Cell.tokenized, Cell.Transformed]

variable {transform : ColumnTransform} {column : ColumnDef}

theorem Cell.transformed_ofValue {value : Value} :
    (Cell.ofValue value).Transformed transform ↔ value = .null := by
  cases value <;> simp [Cell.ofValue, Cell.Transformed]

theorem lookup_eq_some_of_mem {entries : List (String × Cell)}
    (distinct : (entries.map Prod.fst).Nodup) {name : String} {cell : Cell}
    (member : (name, cell) ∈ entries) : entries.lookup name = some cell := by
  induction entries with
  | nil => cases member
  | cons entry rest ih =>
    obtain ⟨first, value⟩ := entry
    rw [map_cons, nodup_cons] at distinct
    rcases mem_cons.mp member with same | later
    · cases same
      exact lookup_cons_self
    · have different : name ≠ first := by
        rintro rfl
        exact distinct.1 (mem_map.mpr ⟨_, later, rfl⟩)
      rw [lookup_cons, beq_false_of_ne different]
      exact ih distinct.2 later

variable {row : ResultRow}

theorem ResultRow.get_of_mem (distinct : (row.map Prod.fst).Nodup) {name : String}
    {cell : Cell} (member : (name, cell) ∈ row) : row.get name = cell := by
  have reversed : (row.reverse.map Prod.fst).Nodup := by
    rwa [map_reverse, nodup_reverse]
  rw [ResultRow.get, lookup_eq_some_of_mem reversed (mem_reverse.mpr member),
    Option.getD_some]

variable {producer : Producer}

section Produced

variable {settings : Settings} {table : TableDef}

/-- The cell that the query returns for a column. -/
def queryCell (settings : Settings) (table : TableDef) (row : Row) (column : ColumnDef) : Cell :=
  match queryTransform settings table column with
  | some transform => (Cell.ofValue (row column.sourceName)).tokenized transform
  | none => Cell.ofValue (row column.sourceName)

/-- A transform that is not left to Arrow is applied by the query; one that is left to
Arrow is not. -/
theorem queryCell_transformed (transformed : column.transform = some transform) (row : Row) :
    (queryCell settings table row column).Transformed transform ↔
      (leftToArrow settings table transform = true → row column.sourceName = .null) := by
  rw [queryCell, queryTransform, transformed, Option.filter_some]
  by_cases left : leftToArrow settings table transform = true
  · simp [left, Cell.transformed_ofValue]
  · simp [left]

/-- The cell of a column after the Arrow step. -/
def arrowCell (settings : Settings) (table : TableDef) (row : Row) (column : ColumnDef) : Cell :=
  match column.transform with
  | some transform =>
    if leftToArrow settings table transform then
      (queryCell settings table row column).tokenized transform
    else queryCell settings table row column
  | none => queryCell settings table row column

theorem arrowCell_transformed (transformed : column.transform = some transform) (row : Row) :
    (arrowCell settings table row column).Transformed transform := by
  unfold arrowCell
  rw [transformed]
  dsimp only
  split
  · exact Cell.transformed_tokenized _ _
  · rename_i native
    exact (queryCell_transformed transformed row).mpr fun left => absurd left native

theorem name_arrowColumn (column : ColumnDef) :
    (arrowColumn settings table column).name = column.name := by
  unfold arrowColumn
  split
  · rfl
  · split <;> rfl

theorem sourceName_of_own (own : column.source = some column.name) :
    column.sourceName = column.name := by
  unfold ColumnDef.sourceName
  rw [own]
  dsimp only
  split <;> simp_all

theorem fst_of_tokenizeColumn {entry : String × Cell}
    (tokenized : tokenizeColumn settings column row = .ok entry) : entry.1 = column.name := by
  unfold tokenizeColumn at tokenized
  split at tokenized
  · cases tokenized
  · dsimp only at tokenized
    split at tokenized
    · rw [← Except.ok.inj tokenized]
    · split at tokenized
      · cases tokenized
      · rw [← Except.ok.inj tokenized]

theorem arrowColumn_of_some (settings : Settings) (table : TableDef)
    (transformed : column.transform = some transform) :
    (arrowColumn settings table column).source = some column.name ∧
      (arrowColumn settings table column).transform =
        if leftToArrow settings table transform then some transform else none := by
  unfold arrowColumn
  split
  · rename_i untransformed
    rw [transformed] at untransformed
    cases untransformed
  · rename_i applied same
    obtain rfl : transform = applied := Option.some.inj (transformed.symm.trans same)
    split
    · exact ⟨rfl, same⟩
    · exact ⟨rfl, rfl⟩

/-- The Arrow step reads a transformed column under its output name. -/
theorem snd_of_tokenizeColumn (transformed : column.transform = some transform)
    {entry : String × Cell}
    (tokenized : tokenizeColumn settings (arrowColumn settings table column) row = .ok entry) :
    entry.2 = if leftToArrow settings table transform then
      (row.get column.name).tokenized transform else row.get column.name := by
  obtain ⟨source, kept⟩ := arrowColumn_of_some settings table transformed
  have own : (arrowColumn settings table column).sourceName = column.name := by
    rw [sourceName_of_own (source.trans (congrArg some (name_arrowColumn column).symm)),
      name_arrowColumn]
  unfold tokenizeColumn at tokenized
  rw [own, kept] at tokenized
  split at tokenized
  · cases tokenized
  · by_cases left : leftToArrow settings table transform = true
    · simp only [left, if_true] at tokenized ⊢
      split at tokenized
      · cases tokenized
      · rw [← Except.ok.inj tokenized]
    · simp only [left, Bool.false_eq_true, if_false] at tokenized ⊢
      rw [← Except.ok.inj tokenized]

/-- The cell of a transformed column in a row that a path hands on. -/
def handedCell (settings : Settings) (producer : Producer) (table : TableDef) (row : Row)
    (column : ColumnDef) : Cell :=
  if producer.takesArrowStep then arrowCell settings table row column
  else queryCell settings table row column

/-- A row that a path hands on for a source row: its transformed columns hold the cells of
the path. -/
def Hands (settings : Settings) (producer : Producer) (table : TableDef) (row : Row)
    (result : ResultRow) : Prop :=
  ∀ column ∈ table.schema, ∀ transform, column.transform = some transform →
    result.get column.name = handedCell settings producer table row column

variable (distinct : (table.schema.map ColumnDef.name).Nodup)
include distinct

/-- In a row of the query every column has its cell. -/
theorem get_queryRow (row : Row) (member : column ∈ table.schema) :
    ResultRow.get (table.schema.map fun column =>
      (column.name, queryCell settings table row column)) column.name =
        queryCell settings table row column := by
  refine ResultRow.get_of_mem ?_ (mem_map.mpr ⟨column, member, rfl⟩)
  rw [map_map]
  exact distinct

theorem get_tokenizedRow {row : Row} {result : ResultRow}
    (tokenized : ((arrowFallbackColumns settings table).mapM fun column =>
      tokenizeColumn settings column (table.schema.map fun column =>
        (column.name, queryCell settings table row column))) = .ok result)
    (member : column ∈ table.schema) (transformed : column.transform = some transform) :
    result.get column.name = arrowCell settings table row column := by
  have names : (result.map Prod.fst).Nodup := by
    rw [mapM_map_eq_ok Prod.fst (fun step => fst_of_tokenizeColumn step) tokenized,
      arrowFallbackColumns, map_map]
    simpa only [Function.comp_def, name_arrowColumn] using distinct
  obtain ⟨entry, inside, step⟩ := exists_related (forall₂_of_mapM tokenized)
    (mem_map.mpr ⟨column, member, rfl⟩)
  have cell := snd_of_tokenizeColumn transformed step
  rw [get_queryRow distinct row member] at cell
  have named : entry = (column.name, arrowCell settings table row column) := by
    refine Prod.ext ((fst_of_tokenizeColumn step).trans (name_arrowColumn column)) ?_
    rw [cell, arrowCell, transformed]
  exact ResultRow.get_of_mem names (named ▸ inside)

/-- Every path hands on one row for each row that the query selects. -/
theorem hands_of_transferred {statement : Statement}
    (rows : ∀ row, resultRow statement row = table.schema.map fun column =>
      (column.name, queryCell settings table row column))
    {batch : List Row} {results : List ResultRow}
    (moved : transferred settings producer table statement batch = .ok results) :
    List.Forall₂ (Hands settings producer table) batch results := by
  have untouched : ∀ row, Hands settings .startup table row (resultRow statement row) := by
    intro row column member transform transformed
    rw [rows, get_queryRow distinct row member]
    rfl
  unfold transferred at moved
  by_cases takes : producer.takesArrowStep = true
  · rw [if_pos takes] at moved
    unfold applyArrowFallback at moved
    dsimp only at moved
    split at moved
    · -- no transform is left to Arrow, so the cells of the query are final
      rename_i nothing
      rw [← Except.ok.inj moved, List.forall₂_map_right_iff, List.forall₂_same]
      intro row _ column member transform transformed
      have native : ¬ leftToArrow settings table transform = true := by
        intro left
        have kept := (arrowColumn_of_some settings table transformed).2
        rw [if_pos left] at kept
        have listed := any_eq_false.mp nothing (arrowColumn settings table column)
          (mem_map.mpr ⟨column, member, rfl⟩)
        rw [kept] at listed
        exact listed rfl
      rw [untouched row column member transform transformed, handedCell, handedCell, if_pos takes,
        arrowCell, transformed]
      dsimp only
      rw [if_neg native]
      rfl
    · have each := forall₂_of_mapM moved
      rw [List.forall₂_map_left_iff] at each
      refine each.imp fun row result step column member transform transformed => ?_
      rw [rows] at step
      rw [get_tokenizedRow distinct step member transformed, handedCell, if_pos takes]
  · rw [if_neg takes] at moved
    rw [← Except.ok.inj moved, List.forall₂_map_right_iff, List.forall₂_same]
    intro row _ column member transform transformed
    rw [untouched row column member transform transformed, handedCell, handedCell, if_neg takes]
    rfl

end Produced

theorem handedCell_transformed {settings : Settings} {table : TableDef}
    (transformed : column.transform = some transform) (row : Row) :
    (handedCell settings producer table row column).Transformed transform ↔
      producer.takesArrowStep = true ∨
        (leftToArrow settings table transform = true → row column.sourceName = .null) := by
  unfold handedCell
  by_cases takes : producer.takesArrowStep = true
  · simp [takes, arrowCell_transformed transformed]
  · simp [takes, queryCell_transformed transformed]

/-- The rows that a path wrote to a file, one for each selected row. -/
theorem exists_hands_of_produce {settings : Settings} {split : PlannedSplit}
    {batches : List (List Row)} {file : ParquetRows}
    (produced : produce settings producer split batches = .ok file) :
    ∃ results, List.Forall₂ (Hands settings producer split.table) batches.flatten results ∧
      file = results.map fun row => split.table.schema.map fun column =>
        (column, row.get column.name) := by
  obtain ⟨query, built, produced⟩ := bind_eq_ok.mp produced
  obtain ⟨parts, moved, produced⟩ := bind_eq_ok.mp produced
  dsimp only [rowsToParquet] at produced
  split at produced
  · rename_i distinct
    refine ⟨parts.flatten, rel_flatten ?_, (Except.ok.inj produced).symm⟩
    refine (forall₂_of_mapM moved).imp fun batch results step =>
      hands_of_transferred distinct (fun row => ?_) step
    rw [resultRow, projection_of_built built, map_map]
    conv_rhs => rw [← zipIdx_map_fst 0 split.table.schema, map_map]
    rfl
  · cases produced

/-- A file holds no plain value of a transformed column exactly when its path takes the
Arrow step, or every value of a column whose transform is left to Arrow is NULL. -/
theorem produce_noPlainValue_iff (settings : Settings) (producer : Producer) (split : PlannedSplit)
    {batches : List (List Row)} {file : ParquetRows}
    (produced : produce settings producer split batches = .ok file) :
    NoPlainValue file ↔ producer.takesArrowStep = true ∨
      ∀ column ∈ split.table.schema, ∀ transform, column.transform = some transform →
        leftToArrow settings split.table transform = true →
          ∀ row ∈ batches.flatten, row column.sourceName = .null := by
  obtain ⟨results, hands, rfl⟩ := exists_hands_of_produce produced
  have cells : NoPlainValue (results.map fun row => split.table.schema.map fun column =>
      (column, row.get column.name)) ↔ ∀ row ∈ batches.flatten, ∀ column ∈ split.table.schema,
        ∀ transform, column.transform = some transform →
          (handedCell settings producer split.table row column).Transformed transform := by
    constructor
    · intro clean row member column inside transform transformed
      obtain ⟨result, listed, handed⟩ := exists_related hands member
      rw [← handed column inside transform transformed]
      exact clean _ (mem_map.mpr ⟨result, listed, rfl⟩) _
        (mem_map.mpr ⟨column, inside, rfl⟩) transform transformed
    · intro clean written listed entry inside transform transformed
      obtain ⟨result, member, rfl⟩ := mem_map.mp listed
      obtain ⟨column, columnMember, rfl⟩ := mem_map.mp inside
      obtain ⟨row, rowMember, handed⟩ := exists_related hands.flip member
      have cell := handed column columnMember transform transformed
      exact cell ▸ clean row rowMember column columnMember transform transformed
  rw [cells]
  by_cases takes : producer.takesArrowStep = true
  · exact iff_of_true (fun row _ column _ transform transformed =>
      (handedCell_transformed transformed row).mpr (.inl takes)) (.inl takes)
  · constructor
    · refine fun clean => .inr fun column member transform transformed left row inside => ?_
      exact ((handedCell_transformed transformed row).mp
        (clean row inside column member transform transformed)).resolve_left takes left
    · rintro (takesStep | nulls) row member column inside transform transformed
      · exact absurd takesStep takes
      · exact (handedCell_transformed transformed row).mpr
          (.inr fun left => nulls column inside transform transformed left row member)

/-! ## A source without tokenization in SQL -/

/-- A column that is to be hashed. -/
def hashedColumn : ColumnDef :=
  { fieldId := 2, name := "s", icebergType := .string
    transform := some
      { kind := .deterministicHash, keyRef := some "r", keyed := by decide, unkeyed := by decide }
    textual := fun _ => rfl }

/-- A table with a hashed column. -/
def hashedTable : TableDef :=
  { name := "t", sourceTable := "t", numSplits := 1
    schema := [{ fieldId := 1, name := "k", icebergType := .long, nullable := false
                 textual := plain_textual }, hashedColumn] }

/-- Settings of a source that leaves tokenization to the Arrow step. -/
def arrowSettings : Settings :=
  { dbUrl := "sqlite", queryMaxRows := 9, tokenizationFallback := .arrow
    tokenizationKey := fun _ => some "x" }

/-- A row with a value to hide. -/
def secretRow : Row := fun name => if name = "k" then .integer 1 else .text "a"

/-- A file with the row as it is. -/
def plainFile : ParquetRows :=
  [[({ fieldId := 1, name := "k", icebergType := .long, nullable := false
       textual := plain_textual }, .plain (.integer 1)), (hashedColumn, .plain (.text "a"))]]

/-- Startup, refresh and regeneration write the value of a hashed column as it is, for a
configuration that validation accepts. -/
theorem produce_writes_plain_value :
    transformProblems arrowSettings hashedTable = [] ∧
      ∀ producer ∈ [Producer.startup, .refresh, .regeneration],
        ∃ file, produce arrowSettings producer (plainSplit hashedTable 1 none 0) [[secretRow]] =
          .ok file ∧ ¬ NoPlainValue file := by
  have accepted : transformProblems arrowSettings hashedTable = [] := by decide +kernel
  have written : ∀ producer ∈ [Producer.startup, .refresh, .regeneration],
      produce arrowSettings producer (plainSplit hashedTable 1 none 0) [[secretRow]] =
        .ok plainFile := by
    decide +kernel
  refine ⟨accepted, fun producer member => ⟨plainFile, written producer member, fun clean => ?_⟩⟩
  exact clean _ (mem_singleton.mpr rfl) (hashedColumn, .plain (.text "a"))
    (mem_cons_of_mem _ (mem_singleton.mpr rfl)) _ rfl

theorem produce_noPlainValue_deferred :
    ∃ file, produce arrowSettings .deferred (plainSplit hashedTable 1 none 0) [[secretRow]] =
      .ok file ∧ NoPlainValue file := by
  have succeeds : (produce arrowSettings .deferred (plainSplit hashedTable 1 none 0)
      [[secretRow]]).isOk = true := by
    decide +kernel
  cases produced : produce arrowSettings .deferred (plainSplit hashedTable 1 none 0)
      [[secretRow]] with
  | error failure => rw [produced] at succeeds; cases succeeds
  | ok file =>
    exact ⟨file, rfl, (produce_noPlainValue_iff arrowSettings .deferred
      (plainSplit hashedTable 1 none 0) produced).mpr (.inl rfl)⟩

end ShortcutProxy.Tokenization
