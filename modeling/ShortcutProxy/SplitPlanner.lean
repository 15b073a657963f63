import ShortcutProxy.Dialects
import ShortcutProxy.KeyStatistics

/-!
# The split planner

`planner/split_planner.py`: which column splits a table, the query of a split, and
the assignment of key ranges to the splits of a snapshot. A split without a range is
read by the remainder of its integer key, or by row number if its key is no integer.

The query is a statement with its bind parameters; `Dialects.render` gives its text.
-/

namespace ShortcutProxy.SplitPlanner

open Dialects KeyRanges KeyStatistics Relational TableConfig

/-- The fields of a `SplitDescriptor` that planning reads and assigns. -/
structure PlannedSplit where
  splitIndex : Int
  numSplits : Int
  table : TableDef
  splitKeyColumn : Option String := none
  keyLo : Option Bound := none
  keyHi : Option Bound := none
  deriving DecidableEq, Repr

/-- Python's `repr` of a plain text. -/
def quotedText (text : String) : String := "'" ++ text ++ "'"

/-- A name that is given and not empty. -/
def given (name : Option String) : Option String := name.filter (· ≠ "")

theorem given_ne_some_empty (name : Option String) : given name ≠ some "" := by
  simp [given]

theorem given_some {name : String} (filled : name ≠ "") : given (some name) = some name := by
  simp [given, filled]

/-- `strip`. -/
def strip (text : String) : String :=
  .ofList ((text.toList.dropWhile Char.isWhitespace).reverse.dropWhile
    Char.isWhitespace).reverse

/-! ## The split key -/

section Key

variable (settings : Settings) (table : TableDef)

/-- The column goes by the name, as output or as source. -/
def named (name : String) (column : ColumnDef) : Bool :=
  name = column.name ∨ name = column.sourceName

/-- `_require_explicit_split_key`. -/
def requireExplicitSplitKey : Except String (Option String) :=
  let caps := settings.capabilitiesFor table
  if caps.requiresExplicitSplitKey = false then .ok none
  else
    let key := strip (table.keyColumn.getD "")
    if key = "" then
      .error ("Dialect " ++ quotedText caps.flavor.name ++ " requires an explicit key_column; " ++
        "primary-key reflection is unavailable.")
    else if table.schema ≠ [] ∧ table.schema.any (named key) = false then
      .error ("Explicit key_column " ++ quotedText key ++
        " is not present in the reflected source columns.")
    else .ok (some key)

/-- `_pk_column`: the explicit key, else the first integer column without NULL, else the
first column. -/
def pkColumn : Except String String := do
  let _ ← requireExplicitSplitKey settings table
  match given table.keyColumn with
  | some key => return key
  | none =>
    match table.schema.find? fun column => !column.nullable && column.icebergType.isInteger with
    | some column => return column.name
    | none =>
      match table.schema with
      | column :: _ => return column.name
      | [] => .error "list index out of range"

/-- `_column_type`, by the name in any case. -/
def columnType (name : String) : Option IcebergType :=
  (table.schema.find? fun column =>
    name.toLower = column.name.toLower ∨ name.toLower = column.sourceName.toLower).map
      ColumnDef.icebergType

/-- `_first_column_of_type`, as far as its name is not empty. -/
def firstColumnOfType (allowed : IcebergType → Bool) : Option String :=
  given ((table.schema.find? fun column => allowed column.icebergType).map ColumnDef.name)

/-- `_choose_strategy_key`. -/
def chooseStrategyKey (strategy : SplitStrategy) : Except String String := do
  let explicitKey ← requireExplicitSplitKey settings table
  match given explicitKey <|> given table.keyColumn with
  | some key => return key
  | none =>
    let integer := if strategy = .range ∨ strategy = .auto then
      firstColumnOfType table IcebergType.isInteger else none
    let temporal := if strategy = .date ∨ strategy = .auto then
      firstColumnOfType table IcebergType.isTemporal else none
    match integer <|> temporal with
    | some key => return key
    | none => pkColumn settings table

end Key

/-! ## The query of a split -/

section Query

variable (settings : Settings)

/-- The transform of a column is left to the Arrow step. -/
def leftToArrow (table : TableDef) (transform : ColumnTransform) : Bool :=
  (settings.capabilitiesFor table).tokenizationBackend transform.kind
    settings.tokenizationFallback = .arrow

/-- The transform that the query applies: `_query_projection_columns` strips the ones that
are left to Arrow. -/
def queryTransform (table : TableDef) (column : ColumnDef) : Option ColumnTransform :=
  column.transform.filter fun transform => !leftToArrow settings table transform

/-- The name of a kind of transform. -/
def kindName : TransformKind → String
  | .deterministicHash => "deterministic_hash"
  | .randomToken => "random_token"

/-- `tokenization_key_env_var`. -/
def tokenizationKeyEnvVar (keyRef : String) : String :=
  "FSP_TOKENIZATION_KEY_" ++
    .ofList (keyRef.toUpper.toList.map fun character =>
      if character.isAlphanum then character else '_')

/-- The `ValueError` of `resolve_tokenization_key`. -/
def missingTokenizationKey (keyRef : String) : String :=
  "Tokenization key " ++ quotedText keyRef ++ " is not configured; set " ++
    tokenizationKeyEnvVar keyRef ++ " or save it in the encrypted tokenization key store"

/-- The dialect has an expression for a transform. -/
def rendersTransform : Flavor → Bool
  | .postgresql | .mssql | .oracle | .databricks => true
  | _ => false

/-- `render_projection` of a column, with its bind values. -/
def renderProjection (flavor : Flavor) (column : ColumnDef) (transform : Option ColumnTransform)
    (index : Nat) : Except String (Projection × List (String × Value)) :=
  let projection : Projection :=
    { source := column.sourceName, output := column.name, transform := transform
      parameter := toString index }
  match transform with
  | none => .ok (projection, [])
  | some transform =>
    if rendersTransform flavor = false then
      .error ("Dialect " ++ quotedText flavor.name ++ " does not support column transform " ++
        quotedText (kindName transform.kind))
    else match transform.kind with
      | .randomToken => .ok (projection, [])
      | .deterministicHash =>
        match settings.tokenizationKey (transform.keyRef.getD "") with
        | none => .error (missingTokenizationKey (transform.keyRef.getD ""))
        | some key => .ok (projection,
            [(keyParameter projection, .text key),
             (domainParameter projection,
              .text ((given transform.domain).getD column.name))])

/-- The projections of all columns, in their order. -/
def renderProjections (table : TableDef) :
    Except String (List (Projection × List (String × Value))) :=
  table.schema.zipIdx.mapM fun column =>
    renderProjection settings (settings.dialectFor table) column.1
      (queryTransform settings table column.1) column.2

/-- Bind values by name; a name that is not bound has no value. -/
def paramsOf (bindings : List (String × Value)) : Params :=
  fun name => (bindings.lookup name).getD .null

/-- `serialize_range_bound`: Oracle takes days and moments as text. -/
def serializeRangeBound (flavor : Flavor) (keyType : Option IcebergType) (bound : Bound) : Value :=
  match flavor, keyType, bound with
  | .oracle, some .date, .date day => .written .day day
  | .oracle, some .date, .timestamp micros _ => .written .day (dayOfMicros micros)
  | .oracle, some .timestamp, .timestamp micros _ => .written .moment micros
  | .oracle, some .timestamptz, .timestamp micros _ => .written .zonedMoment micros
  | _, _, _ => bound.value

/-- The type under which range bounds are sent: a zoned column with naive bounds is
compared as a naive one. -/
def rangeKeyType (keyType : Option IcebergType) (low : Bound) : Option IcebergType :=
  match keyType, low with
  | some .timestamptz, .timestamp _ false => some .timestamp
  | _, _ => keyType

/-- The key column of a split. -/
def splitKey (split : PlannedSplit) : Except String String :=
  match given split.splitKeyColumn with
  | some key => .ok key
  | none => pkColumn settings split.table

/-- The checks of `build_split_query` on the key. -/
def checkSplitKey (table : TableDef) (key : String) : Except String Unit :=
  let caps := settings.capabilitiesFor table
  if caps.requiresExplicitSplitKey = true ∧ table.keyColumn ≠ some key then
    .error ("Dialect " ++ quotedText caps.flavor.name ++ " requires split_key_column to match " ++
      "the explicit table key_column.")
  else if caps.requiresExplicitSplitKey = true ∧ table.schema ≠ [] ∧
      table.schema.any (named key) = false then
    .error ("Explicit split key " ++ quotedText key ++
      " is not present in the reflected source columns.")
  else if table.schema.any (fun column => column.transform.isSome && named key column) = true then
    .error ("Split key " ++ quotedText key ++ " cannot have a column transform")
  else .ok ()

/-- The statement for a split and its own bind values, once the key and the projections
are known. -/
def splitStatement (split : PlannedSplit) (key : String) (projection : List Projection) :
    Statement × List (String × Value) :=
  let table := split.table
  let flavor := settings.dialectFor table
  let keyType := columnType table key
  let maxRows := ("max_rows", .integer (table.effectiveMaxRows settings))
  match split.keyLo, split.keyHi with
  | some low, some high =>
    let rangeType := rangeKeyType keyType low
    (buildSelectRange flavor projection table.sourceTable key rangeType,
      [("key_lo", serializeRangeBound flavor rangeType low),
       ("key_hi", serializeRangeBound flavor rangeType high), maxRows])
  | _, _ =>
    let build := if keyType.any IcebergType.isInteger then buildSelect else buildSelectRowNumber
    (build projection table.sourceTable key,
      [("num_splits", .integer split.numSplits), ("split_index", .integer split.splitIndex),
       maxRows])

/-- `build_split_query`. -/
def buildSplitQuery (split : PlannedSplit) : Except String (Statement × Params) := do
  let _ ← requireExplicitSplitKey settings split.table
  let key ← splitKey settings split
  checkSplitKey settings split.table key
  let rendered ← renderProjections settings split.table
  let (statement, bindings) := splitStatement settings split key (rendered.map Prod.fst)
  return (statement, paramsOf (bindings ++ rendered.flatMap Prod.snd))

end Query

/-! ## Planning ranges -/

section Ranges

variable (settings : Settings)

/-- The histogram bounds that `_balanced_ranges` starts from, if it asks for them. -/
def histogramBounds (table : TableDef) (replies : KeyReplies) (keyType : IcebergType)
    (count : Nat) : Option (List Int × Int) :=
  let caps := settings.capabilitiesFor table
  if settings.splitUseStatsHistogram = true ∧ caps.supportsStatsHistogram = true ∧
      keyType.isInteger = true then
    fetchKeyHistogramBounds caps.flavor replies count
  else none

/-- `_balanced_ranges`. -/
def balancedRanges (table : TableDef) (replies : KeyReplies) (keyType : IcebergType)
    (count : Nat) : Option (List (Bound × Bound)) :=
  if count < 1 then none
  else match histogramBounds settings table replies keyType count with
    | some (mins, high) => balancedFrom keyType count (mins.map .integer) (.integer high)
    | none =>
      match fetchKeyQuantileBounds replies count (table.effectiveSplitSampleRows settings)
          keyType.isInteger with
      | .ok (some (mins, high)) => balancedFrom keyType count mins high
      | _ => none

/-- The strategy that planning follows: a target of rows turns modulo into range. -/
def plannedStrategy (table : TableDef) : SplitStrategy :=
  let strategy := table.effectiveSplitStrategy settings
  if strategy = .modulo ∧ 0 < table.effectiveSplitTargetRows settings then .range else strategy

/-- Whether planning tries ranges of equal count. -/
def triesBalanced (table : TableDef) (keyType : IcebergType) : Bool :=
  let caps := settings.capabilitiesFor table
  decide (table.effectiveSplitBalance settings = .count) &&
    (caps.supportsNtile || caps.supportsStatsHistogram) &&
    (keyType.isInteger || keyType.isTemporal)

/-- The ranges that planning assigns, or none for the fallback to modulo. -/
def plannedRanges (session : ReadSession) (table : TableDef) (strategy : SplitStrategy)
    (key : String) (count : Nat) : Except String (Option (List (Bound × Bound))) :=
  if (settings.capabilitiesFor table).supportsRangeKeyBounds = false then .ok none
  else match columnType table key with
    | none => .ok none
    | some keyType =>
      let replies := session table.sourceTable key
      let balanced := if triesBalanced settings table keyType then
        balancedRanges settings table replies keyType count else none
      match balanced with
      | some ranges => .ok (some ranges)
      | none =>
        if (strategy = .range ∨ strategy = .auto) ∧ keyType.isInteger = true then
          -- a failed query counts as no bounds
          .ok (((fetchKeyBounds replies).toOption.join).map fun bounds =>
            (computeKeyRanges bounds.1 bounds.2 count).map fun range =>
              (.integer range.1, .integer range.2))
        else if (strategy = .date ∨ strategy = .auto) ∧ keyType.isTemporal = true then
          match (fetchColumnBounds replies).toOption.join with
          | some bounds =>
            (computeTemporalRanges bounds.1 bounds.2 count (temporalKind keyType)).map some
          | none => .ok none
        else .ok none

/-- Assign the ranges to the splits in order. -/
def assignRanges (splits : List PlannedSplit) (ranges : List (Bound × Bound)) :
    List PlannedSplit :=
  splits.zipIdx.map fun split =>
    match ranges[split.2]? with
    | some range => { split.1 with keyLo := some range.1, keyHi := some range.2 }
    | none => split.1

/-- `plan_ranges_for_snapshot`: whether ranges were assigned, and the splits. The split
key is set even when planning falls back. -/
def planRangesForSnapshot (session : ReadSession) (table : TableDef)
    (splits : List PlannedSplit) : Except String (Bool × List PlannedSplit) :=
  let strategy := plannedStrategy settings table
  if strategy = .modulo then .ok (false, splits)
  else do
    let key ← chooseStrategyKey settings table strategy
    let keyed := splits.map fun split => { split with splitKeyColumn := some key }
    match ← plannedRanges settings session table strategy key splits.length with
    | some ranges => return (true, assignRanges keyed ranges)
    | none => return (false, keyed)

end Ranges

/-- A split of a table without a range. -/
def plainSplit (table : TableDef) (count : Nat) (keyColumn : Option String) (index : Nat) :
    PlannedSplit :=
  { splitIndex := index, numSplits := count, table := table, splitKeyColumn := keyColumn }

/-- The splits of a fresh snapshot. -/
def freshSplits (table : TableDef) (count : Nat) : List PlannedSplit :=
  (List.range count).map (plainSplit table count none)

end ShortcutProxy.SplitPlanner
