import ShortcutProxy.Relational
import ShortcutProxy.TableConfig

/-!
# Split statements and their text

`planner/dialects.py` writes the query of a split in the SQL of each flavor. The
query is kept here as a statement, whose selection has a meaning, and the text that
a flavor sends is rendered from it. The flavors differ in quoting, in the spelling of
the remainder, in the row limit and in how a numbered subquery is named; the
selection is the same for all of them.
-/

namespace ShortcutProxy.Dialects

open Relational TableConfig

/-- A projected column: the source column, its output name and the transform that the
query applies, with the suffix of its bind parameters. -/
structure Projection where
  source : String
  output : String
  transform : Option ColumnTransform := none
  parameter : String := ""
  deriving DecidableEq, Repr

/-- The query of a split. -/
structure Statement where
  projection : List Projection
  source : String
  select : Select
  deriving DecidableEq, Repr

/-! ## Quoting -/

/-- `int_cast_type`. -/
def intCastType : Flavor → String
  | .generic | .sqlite => "INTEGER"
  | .oracle => "NUMBER(19)"
  | .postgresql | .mssql | .databricks | .redshift | .teradata | .impala => "BIGINT"

/-- The opening and the closing quote of identifiers. -/
def quotes : Flavor → Char × Char
  | .mssql => ('[', ']')
  | .databricks | .impala => (.ofNat 96, .ofNat 96)
  | .generic | .sqlite | .postgresql | .oracle | .redshift | .teradata => ('"', '"')

/-- Quote an identifier and double the closing quote inside it. -/
def quoteWith (quote : Char × Char) (identifier : List Char) : String :=
  .ofList (quote.1 :: (identifier.flatMap fun character =>
    if character = quote.2 then [quote.2, quote.2] else [character]) ++ [quote.2])

/-- Undouble the double quotes of an identifier. -/
def undoubled : List Char → List Char
  | '"' :: '"' :: rest => '"' :: undoubled rest
  | character :: rest => character :: undoubled rest
  | [] => []

/-- The identifier that Oracle looks up: without its own quotes, and in upper case if
it is all lower case. -/
def oracleIdentifier (identifier : List Char) : List Char :=
  if 2 ≤ identifier.length ∧ identifier.head? = some '"' ∧ identifier.getLast? = some '"' then
    undoubled (identifier.drop 1).dropLast
  else if identifier.any Char.isLower ∧ ¬ identifier.any Char.isUpper then
    identifier.map .toUpper
  else identifier

variable (flavor : Flavor)

/-- `quote`. -/
def quote (identifier : String) : String :=
  quoteWith (quotes flavor) (match flavor with
    | .oracle => oracleIdentifier identifier.toList
    | _ => identifier.toList)

/-- `quote_qualified`. -/
def quoteQualified (name : String) : String :=
  .intercalate "." ((name.toList.splitOn '.').map fun part =>
    quote flavor (.ofList part))

/-- The identifier that a database reads after the opening quote. -/
def unquote (close : Char) : List Char → Option (List Char)
  | [] => none
  | first :: rest =>
    if first ≠ close then (unquote close rest).map (first :: ·)
    else match rest with
      | [] => some []
      | second :: more => if second = close then (unquote close more).map (close :: ·) else none

/-- The column that numbers the rows of a subquery. -/
def rowNumberName : String := "__row_num"

/-- Whether the flavor names the subquery in front of the row number. -/
def qualifiesRowNumber : Flavor → Bool
  | .mssql | .oracle | .teradata => true
  | _ => false

/-- The text of the format in the reading functions of Oracle. -/
def readFunction : TextFormat → String × String
  | .day => ("TO_DATE", "'YYYY-MM-DD'")
  | .moment => ("TO_TIMESTAMP", "'YYYY-MM-DD HH24:MI:SS.FF6'")
  | .zonedMoment => ("TO_TIMESTAMP_TZ", "'YYYY-MM-DD HH24:MI:SS.FF6 TZH:TZM'")

/-- The text of an expression. -/
def exprText (flavor : Flavor) : Expr → String
  | .column name => quote flavor name
  | .rowNumber => (if qualifiesRowNumber flavor then "q." else "") ++ quote flavor rowNumberName
  | .param name => ":" ++ name
  | .parse format name =>
    (readFunction format).1 ++ "(:" ++ name ++ ", " ++ (readFunction format).2 ++ ")"
  | .castInteger operand =>
    "CAST(" ++ exprText flavor operand ++ " AS " ++ intCastType flavor ++ ")"
  | .remainder left right =>
    match flavor with
    | .oracle => "(MOD(" ++ exprText flavor left ++ ", " ++ exprText flavor right ++ "))"
    | .teradata => "(" ++ exprText flavor left ++ " MOD " ++ exprText flavor right ++ ")"
    | _ => "(" ++ exprText flavor left ++ " % " ++ exprText flavor right ++ ")"
  | .lessOne operand => "(" ++ exprText flavor operand ++ " - 1)"

/-- The text of a condition. -/
def condText (flavor : Flavor) : Cond → String
  | .equal left right => exprText flavor left ++ " = " ++ exprText flavor right
  | .atLeast left right => exprText flavor left ++ " >= " ++ exprText flavor right
  | .lessThan left right => exprText flavor left ++ " < " ++ exprText flavor right
  | .both left right => condText flavor left ++ " AND " ++ condText flavor right

/-! ## Projections -/

/-- The bind parameters of a hashed column. -/
def keyParameter (projection : Projection) : String := "fsp_token_key_" ++ projection.parameter

@[inherit_doc keyParameter]
def domainParameter (projection : Projection) : String :=
  "fsp_token_domain_" ++ projection.parameter

/-- The source value as text, normalized as the transform asks, in the functions of a
flavor: the cast, the trimming function and the lower-case function. -/
def normalizedText (cast trim lower : String → String) (normalization : Normalization)
    (source : String) : String :=
  match normalization with
  | .none => cast source
  | .trim => trim (cast source)
  | .trimLower => lower (trim (cast source))

/-- The call of a one-place function. -/
def call (function argument : String) : String := function ++ "(" ++ argument ++ ")"

/-- The expression that replaces a value, for the flavors that can. -/
def tokenText (transform : ColumnTransform) (source key domain : String) :
    Option String :=
  match flavor, transform.kind with
  | .postgresql, .randomToken => some "CAST(gen_random_uuid() AS text)"
  | .mssql, .randomToken => some "CONVERT(varchar(36), NEWID())"
  | .oracle, .randomToken => some "RAWTOHEX(SYS_GUID())"
  | .databricks, .randomToken => some "uuid()"
  | .postgresql, .deterministicHash =>
    let value := normalizedText (fun text => "CAST(" ++ text ++ " AS text)") (call "BTRIM")
      (call "LOWER") transform.normalization source
    some ("UPPER(ENCODE(DIGEST(CAST(:" ++ key ++ " AS text) || '|' || CAST(:" ++ domain ++
      " AS text) || '|' || " ++ value ++ ", 'sha256'), 'hex'))")
  | .mssql, .deterministicHash =>
    let value := normalizedText (fun text => "CONVERT(nvarchar(max), " ++ text ++ ")")
      (fun text => call "LTRIM" (call "RTRIM" text)) (call "LOWER") transform.normalization source
    some ("CONVERT(varchar(64), HASHBYTES('SHA2_256', CONCAT(CONVERT(nvarchar(max), :" ++ key ++
      "), N'|', CONVERT(nvarchar(max), :" ++ domain ++ "), N'|', " ++ value ++ ")), 2)")
  | .oracle, .deterministicHash =>
    let value := normalizedText (fun text => "CAST(" ++ text ++ " AS VARCHAR2(4000))")
      (call "TRIM") (call "LOWER") transform.normalization source
    some ("RAWTOHEX(STANDARD_HASH(CAST(:" ++ key ++ " AS VARCHAR2(4000)) || '|' || CAST(:" ++
      domain ++ " AS VARCHAR2(4000)) || '|' || " ++ value ++ ", 'SHA256'))")
  | .databricks, .deterministicHash =>
    let value := normalizedText (fun text => "CAST(" ++ text ++ " AS STRING)") (call "trim")
      (call "lower") transform.normalization source
    some ("upper(sha2(concat(CAST(:" ++ key ++ " AS STRING), '|', CAST(:" ++ domain ++
      " AS STRING), '|', " ++ value ++ "), 256))")
  | _, _ => none

/-- The output reference of a projected column. Oracle takes the output name as it is. -/
def outputText (projection : Projection) : String :=
  quoteWith (quotes flavor) projection.output.toList

/-- The text of a projected column. -/
def projectionText (projection : Projection) : String :=
  let source := quote flavor projection.source
  let output := outputText flavor projection
  match projection.transform.bind fun transform => tokenText flavor transform source
      (keyParameter projection) (domainParameter projection) with
  | some token =>
    "CASE WHEN " ++ source ++ " IS NULL THEN NULL ELSE " ++ token ++ " END AS " ++ output
  | none =>
    let unnamed : Bool := match flavor with
      | .oracle => source = output
      | _ => projection.source = projection.output
    if unnamed then source else source ++ " AS " ++ output

/-! ## Statements -/

/-- The select list. Over a subquery it names the columns of the subquery. -/
def selectList (statement : Statement) : String :=
  let projected := .intercalate ", " (statement.projection.map (projectionText flavor))
  let outer := .intercalate ", " (statement.projection.map (outputText flavor))
  match statement.select.numbering with
  | none => projected
  | some _ => if outer = "" then projected else outer

/-- The table, or the subquery that numbers its rows. -/
def fromText (statement : Statement) : String :=
  let source := quoteQualified flavor statement.source
  match statement.select.numbering with
  | none => source
  | some key =>
    "(SELECT " ++ .intercalate ", " (statement.projection.map (projectionText flavor)) ++
      ", ROW_NUMBER() OVER (ORDER BY " ++ exprText flavor key ++ ") AS " ++
      quote flavor rowNumberName ++ " FROM " ++ source ++ ")" ++
      (if flavor = .oracle then " q" else " AS q")

/-- The SQL text that a flavor sends for a statement. -/
def render (statement : Statement) : String :=
  let list := selectList flavor statement
  let order := exprText flavor statement.select.orderBy
  let limit := exprText flavor statement.select.limit
  let tail := " FROM " ++ fromText flavor statement ++ " WHERE " ++
    condText flavor statement.select.condition
  match flavor with
  | .mssql => "SELECT TOP (" ++ limit ++ ") " ++ list ++ tail ++ " ORDER BY " ++ order
  | .oracle =>
    "SELECT " ++ list ++ tail ++ " ORDER BY " ++ order ++ " FETCH FIRST " ++ limit ++ " ROWS ONLY"
  | .teradata =>
    "SELECT " ++ list ++ tail ++ " QUALIFY ROW_NUMBER() OVER (ORDER BY " ++ order ++ ") <= " ++
      limit ++ " ORDER BY " ++ order
  | _ => "SELECT " ++ list ++ tail ++ " ORDER BY " ++ order ++ " LIMIT " ++ limit

/-- `build_select`: the rows whose key leaves the remainder of the split. -/
def buildSelect (projection : List Projection) (source key : String) : Statement where
  projection := projection
  source := source
  select := {
    condition := .equal (.remainder (.castInteger (.column key)) (.param "num_splits"))
      (.param "split_index")
    orderBy := .column key
    limit := .param "max_rows" }

/-- `range_parameter`: Oracle reads days and moments from text. -/
def rangeParameter (name : String) (keyType : Option IcebergType) : Expr :=
  match flavor, keyType with
  | .oracle, some .date => .parse .day name
  | .oracle, some .timestamp => .parse .moment name
  | .oracle, some .timestamptz => .parse .zonedMoment name
  | _, _ => .param name

/-- `build_select_range`: the rows whose key lies in the range of the split. -/
def buildSelectRange (projection : List Projection) (source key : String)
    (keyType : Option IcebergType) : Statement where
  projection := projection
  source := source
  select := {
    condition := .both (.atLeast (.column key) (rangeParameter flavor "key_lo" keyType))
      (.lessThan (.column key) (rangeParameter flavor "key_hi" keyType))
    orderBy := .column key
    limit := .param "max_rows" }

/-- `build_select_row_number`: every n-th row in the order of the key. -/
def buildSelectRowNumber (projection : List Projection) (source key : String) : Statement where
  projection := projection
  source := source
  select := {
    numbering := some (.column key)
    condition := .equal (.remainder (.lessOne .rowNumber) (.param "num_splits"))
      (.param "split_index")
    orderBy := .rowNumber
    limit := .param "max_rows" }

example : render .mssql (buildSelectRowNumber [{ source := "a", output := "b" }] "s.t" "k") =
    "SELECT TOP (:max_rows) [b] FROM (SELECT [a] AS [b], ROW_NUMBER() OVER (ORDER BY [k]) AS " ++
      "[__row_num] FROM [s].[t]) AS q WHERE ((q.[__row_num] - 1) % :num_splits) = :split_index " ++
      "ORDER BY q.[__row_num]" := by
  decide +kernel

end ShortcutProxy.Dialects
