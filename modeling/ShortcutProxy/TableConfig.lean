import Mathlib

/-!
# Tables, columns and source databases as configured

The parts of `config.py` and `db/capabilities.py` that planning and materialization
read: the columns of a table with their transforms, the per-table settings with
their global defaults, and what each flavor of database can do.

A column transform and a column are checked when they are built, so the checks are
fields here. Iceberg types that no modelled function tells apart are one case.
-/

namespace ShortcutProxy.TableConfig

/-! ## Columns -/

/-- `_COLUMN_TRANSFORM_KINDS`. -/
inductive TransformKind where
  | deterministicHash
  | randomToken
  deriving DecidableEq, Repr

/-- `_COLUMN_NORMALIZATIONS`. -/
inductive Normalization where
  | none
  | trim
  | trimLower
  deriving DecidableEq, Repr

/-- A transformation of one output column, with the checks of `__post_init__`. -/
structure ColumnTransform where
  kind : TransformKind
  keyRef : Option String := .none
  domain : Option String := .none
  normalization : Normalization := .none
  keyed : kind = .deterministicHash → keyRef.any (· ≠ "") = true
  unkeyed : kind = .randomToken → keyRef.any (· ≠ "") = false
  deriving DecidableEq, Repr

/-- `iceberg_type`. -/
inductive IcebergType where
  | int
  | long
  | date
  | timestamp
  | timestamptz
  | string
  | other (name : String)
  deriving DecidableEq, Repr

/-- `_INTEGER_TYPES`. -/
def IcebergType.isInteger : IcebergType → Bool
  | .int | .long => true
  | _ => false

/-- `_TEMPORAL_TYPES`. -/
def IcebergType.isTemporal : IcebergType → Bool
  | .date | .timestamp | .timestamptz => true
  | _ => false

theorem IcebergType.not_temporal_of_integer {type : IcebergType} (integer : type.isInteger = true) :
    ¬ type.isTemporal = true := by
  cases type <;> simp_all [IcebergType.isInteger, IcebergType.isTemporal]

/-- One column of a table. A transformed column holds text. -/
structure ColumnDef where
  fieldId : Int
  name : String
  icebergType : IcebergType
  nullable : Bool := true
  source : Option String := none
  transform : Option ColumnTransform := none
  textual : transform.isSome = true → icebergType = .string := by simp
  deriving DecidableEq, Repr

theorem plain_textual : (none : Option ColumnTransform).isSome = true →
    IcebergType.long = .string := by
  simp

/-- `source_name`. -/
def ColumnDef.sourceName (column : ColumnDef) : String :=
  match column.source with
  | some source => if source = "" then column.name else source
  | none => column.name

/-! ## Tables -/

inductive SplitStrategy where
  | modulo
  | range
  | date
  | auto
  deriving DecidableEq, Repr

inductive SplitBalance where
  | span
  | count
  deriving DecidableEq, Repr

/-- `TOKENIZATION_FALLBACK`. -/
inductive TokenizationFallback where
  | none
  | arrow
  deriving DecidableEq, Repr

/-- `MATERIALIZE_MODE`. -/
inductive MaterializeMode where
  | eager
  | lazy
  | virtual
  deriving DecidableEq, Repr

/-- `REFRESH_STRATEGY`. -/
inductive RefreshStrategy where
  | auto
  | contentHash
  | other (name : String)
  deriving DecidableEq, Repr

/-- One configured table. -/
structure TableDef where
  name : String
  sourceTable : String
  schema : List ColumnDef
  numSplits : Int
  keyColumn : Option String := none
  connectionId : String := "default"
  splitTargetRows : Option Int := none
  splitTargetBytes : Option Int := none
  splitEstimatedBytesPerRow : Option Int := none
  splitStrategy : Option SplitStrategy := none
  splitBalance : Option SplitBalance := none
  splitSampleRows : Option Int := none
  deriving DecidableEq, Repr

/-- A named source connection. -/
structure Connection where
  dbUrl : String
  queryMaxRows : Int

/-- The global settings that planning and materialization read. -/
structure Settings where
  dbUrl : String
  queryMaxRows : Int
  connections : String → Option Connection := fun _ => none
  splitStrategy : SplitStrategy := .modulo
  splitBalance : SplitBalance := .span
  splitTargetRows : Int := 100000
  splitTargetBytes : Int := 0
  splitEstimatedBytesPerRow : Int := 0
  splitSampleRows : Int := 0
  splitUseStatsHistogram : Bool := true
  materializeMode : MaterializeMode := .eager
  autoRefresh : Bool := false
  refreshStrategy : RefreshStrategy := .auto
  refreshAllowFullPull : Bool := false
  tokenizationFallback : TokenizationFallback := .none
  /-- `resolve_tokenization_key`; a missing key is a `ValueError`. -/
  tokenizationKey : String → Option String := fun _ => none

variable (settings : Settings)

/-- The connection an id names; the default connection and an unknown id name none. -/
def Settings.connection (connectionId : String) : Option Connection :=
  if connectionId = "" ∨ connectionId = "default" then none else settings.connections connectionId

/-- `effective_db_url`. -/
def Settings.effectiveDbUrl (connectionId : String) : String :=
  ((settings.connection connectionId).map Connection.dbUrl).getD settings.dbUrl

/-- `effective_query_max_rows`. -/
def Settings.effectiveQueryMaxRows (connectionId : String) : Int :=
  ((settings.connection connectionId).map Connection.queryMaxRows).getD settings.queryMaxRows

section Effective

variable (settings : Settings) (table : TableDef)

/-- `effective_split_target_rows`. -/
def TableDef.effectiveSplitTargetRows : Int :=
  table.splitTargetRows.getD settings.splitTargetRows

/-- `effective_split_target_bytes`. -/
def TableDef.effectiveSplitTargetBytes : Int :=
  table.splitTargetBytes.getD settings.splitTargetBytes

/-- `effective_split_estimated_bytes_per_row`. -/
def TableDef.effectiveSplitEstimatedBytesPerRow : Int :=
  table.splitEstimatedBytesPerRow.getD settings.splitEstimatedBytesPerRow

/-- `effective_split_strategy`. -/
def TableDef.effectiveSplitStrategy : SplitStrategy :=
  table.splitStrategy.getD settings.splitStrategy

/-- `effective_split_balance`. -/
def TableDef.effectiveSplitBalance : SplitBalance :=
  table.splitBalance.getD settings.splitBalance

/-- `effective_split_sample_rows`. -/
def TableDef.effectiveSplitSampleRows : Int :=
  table.splitSampleRows.getD settings.splitSampleRows

/-- `effective_max_rows`: the row cap of one split query. -/
def TableDef.effectiveMaxRows : Int :=
  let bytes := table.effectiveSplitTargetBytes settings
  let perRow := table.effectiveSplitEstimatedBytesPerRow settings
  let byteTargetRows := if 0 < bytes ∧ 0 < perRow then max 1 ((bytes + perRow - 1) / perRow) else 0
  max (max (settings.effectiveQueryMaxRows table.connectionId)
    (table.effectiveSplitTargetRows settings)) byteTargetRows

end Effective

/-! ## Flavors -/

/-- The flavors of source database. Each has its own SQL dialect. -/
inductive Flavor where
  | generic
  | sqlite
  | postgresql
  | mssql
  | oracle
  | databricks
  | redshift
  | teradata
  | impala
  deriving DecidableEq, Repr

/-- The name of a flavor, which is that of its dialect too. -/
def Flavor.name : Flavor → String
  | .generic => "generic"
  | .sqlite => "sqlite"
  | .postgresql => "postgresql"
  | .mssql => "mssql"
  | .oracle => "oracle"
  | .databricks => "databricks"
  | .redshift => "redshift"
  | .teradata => "teradata"
  | .impala => "impala"

/-- The part of a text before a separator, or all of it. -/
def beforeSeparator (separator : List Char) : List Char → List Char
  | [] => []
  | first :: rest =>
    if separator.isPrefixOf (first :: rest) then []
    else first :: beforeSeparator separator rest

/-- The scheme of a database URL, in lower case. -/
def urlScheme (dbUrl : String) : List Char := beforeSeparator "://".toList dbUrl.toLower.toList

/-- The flavor of the first listed name that the scheme contains. -/
def flavorOfScheme (scheme : List Char) : List (String × Flavor) → Flavor
  | [] => .generic
  | (name, flavor) :: rest =>
    if name.toList <:+: scheme then flavor else flavorOfScheme scheme rest

/-- `get_dialect`. -/
def getDialect (dbUrl : String) : Flavor :=
  flavorOfScheme (urlScheme dbUrl) [("mssql", .mssql), ("redshift", .redshift),
    ("postgres", .postgresql), ("oracle", .oracle), ("databricks", .databricks),
    ("teradata", .teradata), ("impala", .impala), ("sqlite", .sqlite)]

/-- `flavor_from_db_url`. It looks for the names in another order. -/
def flavorFromDbUrl (dbUrl : String) : Flavor :=
  flavorOfScheme (urlScheme dbUrl) [("redshift", .redshift), ("postgres", .postgresql),
    ("mssql", .mssql), ("oracle", .oracle), ("databricks", .databricks),
    ("teradata", .teradata), ("impala", .impala), ("sqlite", .sqlite)]

/-- The capabilities that planning and tokenization ask for. -/
structure FlavorCapabilities where
  flavor : Flavor
  supportsRangeKeyBounds : Bool := true
  requiresExplicitSplitKey : Bool := false
  supportsDeterministicTokenization : Bool := false
  supportsRandomTokenization : Bool := false
  supportsNtile : Bool := true
  supportsStatsHistogram : Bool := false
  deriving DecidableEq, Repr

/-- `_CAPABILITIES`. -/
def capabilities : Flavor → FlavorCapabilities
  | .sqlite => { flavor := .sqlite }
  | .postgresql =>
    { flavor := .postgresql
      supportsDeterministicTokenization := true
      supportsRandomTokenization := true
      supportsStatsHistogram := true }
  | .mssql =>
    { flavor := .mssql
      supportsDeterministicTokenization := true
      supportsRandomTokenization := true
      supportsStatsHistogram := true }
  | .oracle =>
    { flavor := .oracle
      supportsDeterministicTokenization := true
      supportsRandomTokenization := true }
  | .databricks =>
    { flavor := .databricks
      requiresExplicitSplitKey := true
      supportsDeterministicTokenization := true
      supportsRandomTokenization := true }
  | .redshift => { flavor := .redshift }
  | .teradata => { flavor := .teradata }
  | .impala => { flavor := .impala, requiresExplicitSplitKey := true }
  | .generic => { flavor := .generic, supportsRangeKeyBounds := false, supportsNtile := false }

/-- `capabilities_for_db_url` for the connection of a table. -/
def Settings.capabilitiesFor (table : TableDef) : FlavorCapabilities :=
  capabilities (flavorFromDbUrl (settings.effectiveDbUrl table.connectionId))

/-- The dialect of the connection of a table. -/
def Settings.dialectFor (table : TableDef) : Flavor :=
  getDialect (settings.effectiveDbUrl table.connectionId)

/-- Where a transform is applied. -/
inductive TokenizationBackend where
  | native
  | arrow
  | none
  deriving DecidableEq, Repr

/-- `tokenization_backend`. -/
def FlavorCapabilities.tokenizationBackend (capabilities : FlavorCapabilities)
    (kind : TransformKind) (fallback : TokenizationFallback) : TokenizationBackend :=
  let native := match kind with
    | .deterministicHash => capabilities.supportsDeterministicTokenization
    | .randomToken => capabilities.supportsRandomTokenization
  if native then .native
  else match fallback with
    | .arrow => .arrow
    | .none => .none

end ShortcutProxy.TableConfig
