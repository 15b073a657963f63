import ShortcutProxy.SplitPlanner

/-!
# What the query of a split selects

A split query that is built has one of three selections: the keys with a remainder,
the keys in a range, or every n-th row in the order of the key. This module reads
the selection and its bind values off a built query and says which rows pass.
-/

namespace ShortcutProxy.SplitQueries

open Dialects Fallible KeyRanges KeyStatistics Relational SplitPlanner TableConfig

variable {settings : Settings}

variable {split : PlannedSplit} {query : Statement × Params}

/-- A query is built when its checks pass, and it is the statement for the key and the
rendered projections. The bind values of the projections stand behind those of the
statement. -/
theorem built_iff : buildSplitQuery settings split = .ok query ↔ ∃ chosen key rendered,
    requireExplicitSplitKey settings split.table = .ok chosen ∧ splitKey settings split = .ok key ∧
      checkSplitKey settings split.table key = .ok () ∧
      renderProjections settings split.table = .ok rendered ∧
      query = ((splitStatement settings split key (rendered.map Prod.fst)).1,
        paramsOf ((splitStatement settings split key (rendered.map Prod.fst)).2 ++
          rendered.flatMap Prod.snd)) := by
  unfold buildSplitQuery
  simp only [bind_eq_ok, pure, Except.pure, Except.ok.injEq, eq_comm (a := query)]
  constructor
  · rintro ⟨chosen, explicit, key, keyed, _, checked, rendered, projected, same⟩
    exact ⟨chosen, key, rendered, explicit, keyed, checked, projected, same⟩
  · rintro ⟨chosen, key, rendered, explicit, keyed, checked, projected, same⟩
    exact ⟨chosen, explicit, key, keyed, (), checked, rendered, projected, same⟩

theorem exists_rendered_of_built (built : buildSplitQuery settings split = .ok query) :
    ∃ key rendered, splitKey settings split = .ok key ∧
      renderProjections settings split.table = .ok rendered ∧
      query.1 = (splitStatement settings split key (rendered.map Prod.fst)).1 ∧
      query.2 = paramsOf ((splitStatement settings split key (rendered.map Prod.fst)).2 ++
        rendered.flatMap Prod.snd) := by
  obtain ⟨_, key, rendered, _, keyed, _, projected, rfl⟩ := built_iff.mp built
  exact ⟨key, rendered, keyed, projected, rfl, rfl⟩

theorem buildSplitQuery_eq_ok {key : String} (keyed : splitKey settings split = .ok key)
    (built : buildSplitQuery settings split = .ok query) :
    ∃ projection further, query.1 = (splitStatement settings split key projection).1 ∧
      query.2 = paramsOf ((splitStatement settings split key projection).2 ++ further) := by
  obtain ⟨chosen, rendered, found, _, statement, params⟩ := exists_rendered_of_built built
  obtain rfl : key = chosen := Except.ok.inj (keyed.symm.trans found)
  exact ⟨_, _, statement, params⟩

/-- The limit of every query is the row cap of the table. -/
theorem limit_of_built (built : buildSplitQuery settings split = .ok query) :
    (query.1.select.limit.eval query.2 (fun _ => .null) 0).limit =
      (split.table.effectiveMaxRows settings).toNat := by
  obtain ⟨key, rendered, _, _, statement, params⟩ := exists_rendered_of_built built
  rw [statement, params]
  unfold splitStatement
  dsimp only
  split
  · rfl
  · split <;> rfl

/-- The projection of a column whose transform the query applies or not. -/
def columnProjection (settings : Settings) (table : TableDef) (column : ColumnDef) (index : Nat) :
    Projection :=
  { source := column.sourceName, output := column.name
    transform := queryTransform settings table column, parameter := toString index }

theorem fst_of_renderProjection {flavor : Flavor} {column : ColumnDef} {table : TableDef}
    {index : Nat} {rendered : Projection × List (String × Value)}
    (equation : renderProjection settings flavor column (queryTransform settings table column)
      index = .ok rendered) : rendered.1 = columnProjection settings table column index := by
  unfold renderProjection at equation
  unfold columnProjection
  cases transform : queryTransform settings table column with
  | none =>
    rw [transform] at equation
    rw [← Except.ok.inj equation]
  | some applied =>
    rw [transform] at equation
    dsimp only at equation
    split at equation
    · cases equation
    · split at equation
      · rw [← Except.ok.inj equation]
      · split at equation
        · cases equation
        · rw [← Except.ok.inj equation]

/-- The projections of a built query are those of the columns, in their order. -/
theorem projection_of_built (built : buildSplitQuery settings split = .ok query) :
    query.1.projection = split.table.schema.zipIdx.map fun column =>
      columnProjection settings split.table column.1 column.2 := by
  obtain ⟨key, rendered, _, projected, statement, _⟩ := exists_rendered_of_built built
  have listed := mapM_map_eq_ok Prod.fst
    (fun {_ _} equation => fst_of_renderProjection equation) projected
  rw [statement, ← listed]
  unfold splitStatement
  dsimp only
  split
  · rfl
  · split <;> rfl

/-! ## Splits without a range -/

section Plain

variable {table : TableDef} {count index : Nat} {keyColumn : Option String} {key : String}
  {query : Statement × Params}

/-- The bind values of a split without a range. -/
structure PlainParams (settings : Settings) (table : TableDef) (count index : Nat)
    (params : Params) : Prop where
  numSplits : params "num_splits" = .integer count
  splitIndex : params "split_index" = .integer index
  maxRows : params "max_rows" = .integer (table.effectiveMaxRows settings)

theorem plainParams_paramsOf (further : List (String × Value)) :
    PlainParams settings table count index (paramsOf ([("num_splits", .integer count),
      ("split_index", .integer index),
      ("max_rows", .integer (table.effectiveMaxRows settings))] ++ further)) where
  numSplits := rfl
  splitIndex := rfl
  maxRows := rfl

section

variable (keyed : splitKey settings (plainSplit table count keyColumn index) = .ok key)
  (built : buildSplitQuery settings (plainSplit table count keyColumn index) = .ok query)
include keyed built

/-- With an integer key the query selects by remainder. -/
theorem select_of_integer (integerKey : (columnType table key).any IcebergType.isInteger = true) :
    (∃ projection, query.1 = buildSelect projection table.sourceTable key) ∧
      PlainParams settings table count index query.2 := by
  obtain ⟨projection, further, statement, params⟩ := buildSplitQuery_eq_ok keyed built
  simp only [splitStatement, plainSplit, integerKey, if_true] at statement params
  exact ⟨⟨projection, statement⟩, params ▸ plainParams_paramsOf further⟩

/-- With any other key it selects by row number. -/
theorem select_of_not_integer (otherKey : (columnType table key).any IcebergType.isInteger = false) :
    (∃ projection, query.1 = buildSelectRowNumber projection table.sourceTable key) ∧
      PlainParams settings table count index query.2 := by
  obtain ⟨projection, further, statement, params⟩ := buildSplitQuery_eq_ok keyed built
  simp only [splitStatement, plainSplit, otherKey, Bool.false_eq_true, if_false] at statement params
  exact ⟨⟨projection, statement⟩, params ▸ plainParams_paramsOf further⟩

end

variable {params : Params} (bound : PlainParams settings table count index params)
  (positive : 1 ≤ count) (projection : List Projection) (source : String) (row : Row)
include bound positive

/-- A row passes when its key is an integer that leaves the remainder of the split. -/
theorem buildSelect_holds :
    (buildSelect projection source key).select.condition.holds params (row, 0) = true ↔
      ∃ number : Int, row key = .integer number ∧ number.tmod count = index := by
  have nonzero : (count : Int) ≠ 0 := by omega
  simp only [buildSelect, Cond.holds, Cond.eval, Expr.eval, bound.numSplits, bound.splitIndex]
  cases row key with
  | integer number => simp [Value.remainder_integer nonzero, Value.compare]
  | _ => simp [Value.remainder, Value.compare]

/-- A numbered row passes when its position leaves the remainder of the split. -/
theorem buildSelectRowNumber_holds (position : Nat) :
    (buildSelectRowNumber projection source key).select.condition.holds params
      (row, position + 1) = true ↔ position % count = index := by
  have nonzero : (count : Int) ≠ 0 := by omega
  have shifted : ((position + 1 : Nat) : Int) - 1 = position := by omega
  have remainder : ((position : Int).tmod count = index) ↔ position % count = index := by
    rw [Int.tmod_eq_emod_of_nonneg (Int.natCast_nonneg position)]
    exact_mod_cast Iff.rfl
  simp only [buildSelectRowNumber, Cond.holds, Cond.eval, Expr.eval, bound.numSplits,
    bound.splitIndex, shifted]
  simp [Value.remainder_integer nonzero, Value.compare, remainder]

end Plain

/-! ## Splits with a range -/

section Range

variable {keyType : IcebergType} {kind : KeyKind}

/-- Whatever form a flavor sends a bound in, its query reads the bound back. -/
theorem rangeParameter_eval (fits : kind.Fits keyType) (flavor : Flavor) (first : Int)
    {params : Params} {name : String} {count : Int}
    (bound : params name = serializeRangeBound flavor
      (rangeKeyType (some keyType) (kind.bound first)) (kind.bound count)) (row : Row) :
    (rangeParameter flavor name (rangeKeyType (some keyType) (kind.bound first))).eval params row 0 =
      kind.value count := by
  by_cases oracle : flavor = .oracle
  · subst oracle
    cases kind with
    | integer => cases keyType <;> first | exact bound | cases fits
    | date =>
      obtain rfl : keyType = .date := fits
      exact congrArg (Value.parsed .day) bound
    | timestamp aware =>
      rcases fits with rfl | rfl
      · exact congrArg (Value.parsed .moment) bound
      · cases aware with
        | false => exact congrArg (Value.parsed .moment) bound
        | true => exact congrArg (Value.parsed .zonedMoment) bound
  · have plain : rangeParameter flavor name (rangeKeyType (some keyType) (kind.bound first)) =
        .param name := by
      cases flavor <;> first | exact absurd rfl oracle | rfl
    have sent : serializeRangeBound flavor (rangeKeyType (some keyType) (kind.bound first))
        (kind.bound count) = kind.value count := by
      cases flavor <;> first | exact absurd rfl oracle | rfl
    rw [plain, Expr.eval, bound, sent]

theorem compare_value_eq_some {value : Value} {count : Int} {order : Ordering}
    (compared : value.compare (kind.value count) = some order) :
    ∃ number, value = kind.value number ∧ order = compare number count := by
  cases kind <;> cases value <;>
    simp only [Value.compare, KeyKind.value, KeyKind.bound, Bound.value, Option.some.injEq,
      reduceCtorEq] at compared
  all_goals exact ⟨_, rfl, compared.symm⟩

theorem compare_values (number count : Int) :
    (kind.value number).compare (kind.value count) = some (compare number count) := by
  cases kind <;> rfl

/-- A row passes a range when its key is of the kind and lies in the range; a NULL key
does not. -/
theorem buildSelectRange_holds (fits : kind.Fits keyType) (flavor : Flavor) {low high : Int}
    {params : Params}
    (lowBound : params "key_lo" = serializeRangeBound flavor
      (rangeKeyType (some keyType) (kind.bound low)) (kind.bound low))
    (highBound : params "key_hi" = serializeRangeBound flavor
      (rangeKeyType (some keyType) (kind.bound low)) (kind.bound high))
    (projection : List Projection) (source key : String) (row : Row) :
    (buildSelectRange flavor projection source key (rangeKeyType (some keyType)
      (kind.bound low))).select.condition.holds params (row, 0) = true ↔
      ∃ number, row key = kind.value number ∧ low ≤ number ∧ number < high := by
  have lowEval := rangeParameter_eval fits flavor low lowBound row
  have highEval := rangeParameter_eval fits flavor low highBound row
  rw [buildSelectRange, Cond.holds_both, Bool.and_eq_true, Cond.holds_atLeast,
    Cond.holds_lessThan, lowEval, highEval, Expr.eval]
  dsimp only
  constructor
  · rintro ⟨⟨order, compared, above⟩, below⟩
    obtain ⟨number, value, rfl⟩ := compare_value_eq_some compared
    rw [value, compare_values, Option.some.injEq] at below
    refine ⟨number, value, ?_, compare_lt_iff_lt.mp below⟩
    exact not_lt.mp fun less => above (compare_lt_iff_lt.mpr less)
  · rintro ⟨number, value, above, below⟩
    rw [value, compare_values, compare_values]
    exact ⟨⟨_, rfl, fun less => absurd (compare_lt_iff_lt.mp less) (not_lt.mpr above)⟩,
      congrArg some (compare_lt_iff_lt.mpr below)⟩

/-- The query of a split with a range, and the rows that pass it. -/
theorem select_of_range {key : String} {low high : Int} (keyed : splitKey settings split = .ok key)
    (typed : columnType split.table key = some keyType) (fits : kind.Fits keyType)
    (lowEnd : split.keyLo = some (kind.bound low)) (highEnd : split.keyHi = some (kind.bound high))
    (built : buildSplitQuery settings split = .ok query) :
    query.1.select.numbering = none ∧
      ∀ row, query.1.select.condition.holds query.2 (row, 0) = true ↔
        ∃ number, row key = kind.value number ∧ low ≤ number ∧ number < high := by
  obtain ⟨projection, further, statement, params⟩ := buildSplitQuery_eq_ok keyed built
  simp only [splitStatement, lowEnd, highEnd, typed] at statement params
  rw [statement]
  refine ⟨rfl, fun row => buildSelectRange_holds fits _ ?_ ?_ projection _ key row⟩
  · rw [params]
    rfl
  · rw [params]
    rfl

end Range

end ShortcutProxy.SplitQueries
