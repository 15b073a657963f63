import ShortcutProxy.SplitQueries

/-!
# Do the splits of a table make up the table?

The queries of the splits of one table, run one after another against rows that do
not change, each within its row limit. The module says for splits without ranges when
their answers together are the rows of the table, each row once:

* by remainder, exactly when no key is NULL and every negative key is a multiple of
  the number of splits, because the SQL remainder of a negative number is negative;
* by row number, exactly when the rows with equal keys are equal rows, because each
  query numbers the rows for itself.
-/

namespace ShortcutProxy.SplitPartition

open Dialects Partition Relational SplitPlanner SplitQueries TableConfig List IcebergType

/-! ## Runs of all splits -/

/-- Every split has a query, no query runs into its limit, and each has an admissible
answer. -/
structure Reads (settings : Settings) (collation : Collation) (rows : List Row) (count : Nat)
    (splits : Nat → PlannedSplit) (answers : Nat → List Row) : Prop where
  answered : ∀ index < count, ∃ query : Statement × Params,
    buildSplitQuery settings (splits index) = .ok query ∧
      query.1.select.Fits collation query.2 rows ∧
      query.1.select.Answers collation query.2 rows (answers index)

variable {settings : Settings} {rows : List Row} {count : Nat}

/-- Where each query tests the rows one by one, the answers are the table exactly when
every row passes the test of one split. -/
theorem answers_perm_iff {collation : Collation} {splits : Nat → PlannedSplit}
    {answers : Nat → List Row} (reads : Reads settings collation rows count splits answers)
    {passes : Nat → Row → Bool}
    (tests : ∀ index < count, ∀ query : Statement × Params,
      buildSplitQuery settings (splits index) = .ok query → query.1.select.numbering = none ∧
        ∀ row, query.1.select.condition.holds query.2 (row, 0) = passes index row) :
    ((List.range count).flatMap answers).Perm rows ↔
      ∀ row ∈ rows, (List.range count).countP (fun index => passes index row) = 1 := by
  have filtered : ((List.range count).flatMap answers).Perm
      ((List.range count).flatMap fun index => rows.filter (passes index)) := by
    refine .flatMap_left _ fun index member => ?_
    obtain ⟨query, built, fits, answered⟩ := reads.answered index (mem_range.mp member)
    obtain ⟨plain, holds⟩ := tests index (mem_range.mp member) query built
    have kept := answered.perm_filter fits plain
    simpa only [holds] using kept
  rw [← flatMap_filter_perm_iff]
  exact ⟨filtered.symm.trans, filtered.trans⟩

/-- A table within the row cap can be read, as soon as its queries are built. -/
theorem exists_reads (collation : Collation) {splits : Nat → PlannedSplit}
    (built : ∀ index < count, (buildSplitQuery settings (splits index)).isOk = true ∧
      rows.length ≤ ((splits index).table.effectiveMaxRows settings).toNat) :
    ∃ answers, Reads settings collation rows count splits answers := by
  have each : ∀ index < count, ∃ answer : List Row, ∃ query : Statement × Params,
      buildSplitQuery settings (splits index) = .ok query ∧
        query.1.select.Fits collation query.2 rows ∧
        query.1.select.Answers collation query.2 rows answer := by
    intro index inside
    obtain ⟨succeeds, short⟩ := built index inside
    cases equation : buildSplitQuery settings (splits index) with
    | error failure => rw [equation] at succeeds; cases succeeds
    | ok query =>
      rw [← limit_of_built equation] at short
      obtain ⟨answer, answered⟩ := Select.exists_answer collation query.2 query.1.select rows
      exact ⟨answer, query, rfl, Select.fits_of_length_le short, answered⟩
  choose! answers spec using each
  exact ⟨answers, ⟨spec⟩⟩

/-! ## By remainder -/

theorem zero_le_tmod_iff (key : Int) : 0 ≤ key.tmod count ↔ 0 ≤ key ∨ (count : Int) ∣ key := by
  constructor
  · intro nonneg
    rcases le_or_gt 0 key with positive | negative
    · exact .inl positive
    · have opposite : 0 ≤ (-key).tmod count := Int.tmod_nonneg _ (by omega)
      rw [Int.neg_tmod] at opposite
      exact .inr (Int.dvd_of_tmod_eq_zero (by omega))
  · rintro (positive | divides)
    · exact Int.tmod_nonneg _ positive
    · rw [Int.tmod_eq_zero_of_dvd divides]

/-- One remainder is the index of one split, unless it is negative. -/
theorem countP_tmod_eq_one_iff (positive : 1 ≤ count) (key : Int) :
    (List.range count).countP (fun index : Nat => decide (key.tmod count = index)) = 1 ↔
      0 ≤ key ∨ (count : Int) ∣ key := by
  rw [← zero_le_tmod_iff]
  have small : key.tmod count < count := Int.tmod_lt_of_pos _ (by omega)
  constructor
  · intro counted
    have some_index : 0 < (List.range count).countP
        (fun index : Nat => decide (key.tmod count = index)) := by omega
    obtain ⟨index, _, equal⟩ := countP_pos_iff.mp some_index
    rw [of_decide_eq_true equal]
    exact Int.natCast_nonneg index
  · intro nonneg
    obtain ⟨remainder, equal⟩ := Int.eq_ofNat_of_zero_le nonneg
    have inside : remainder ∈ List.range count := mem_range.mpr (by omega)
    rw [← count_eq_one_of_mem nodup_range inside, List.count]
    refine countP_congr fun index _ => ?_
    rw [equal, decide_eq_true_iff, beq_iff_eq]
    omega

/-- The test of a split by remainder. -/
def leavesRemainder (key : String) (count index : Nat) (row : Row) : Bool :=
  match row key with
  | .integer number => decide (number.tmod count = index)
  | _ => false

theorem remainder_tests {table : TableDef} {keyColumn : Option String} {key : String}
    (positive : 1 ≤ count)
    (keyed : ∀ index, splitKey settings (plainSplit table count keyColumn index) = .ok key)
    (integerKey : (columnType table key).any isInteger = true) (index : Nat)
    (query : Statement × Params)
    (built : buildSplitQuery settings (plainSplit table count keyColumn index) = .ok query) :
    query.1.select.numbering = none ∧ ∀ row,
      query.1.select.condition.holds query.2 (row, 0) = leavesRemainder key count index row := by
  obtain ⟨⟨projection, statement⟩, bound⟩ := select_of_integer (keyed index) built integerKey
  rw [statement]
  refine ⟨rfl, fun row => Bool.eq_iff_iff.mpr ?_⟩
  rw [buildSelect_holds bound positive, leavesRemainder]
  cases row key <;> simp

/-- Splits by the remainder of an integer key make up the table exactly when every key is
an integer that is not negative or a multiple of the number of splits. -/
theorem remainder_splits_perm_iff (settings : Settings) (table : TableDef)
    (keyColumn : Option String) (collation : Collation) {key : String} {count : Nat}
    (positive : 1 ≤ count)
    (keyed : ∀ index, splitKey settings (plainSplit table count keyColumn index) = .ok key)
    (integerKey : (columnType table key).any isInteger = true) {rows : List Row}
    {answers : Nat → List Row}
    (reads : Reads settings collation rows count (plainSplit table count keyColumn) answers) :
    ((List.range count).flatMap answers).Perm rows ↔
      ∀ row ∈ rows, ∃ number : Int, row key = .integer number ∧
        (0 ≤ number ∨ (count : Int) ∣ number) := by
  rw [answers_perm_iff reads fun index _ => remainder_tests positive keyed integerKey index]
  refine forall₂_congr fun row _ => ?_
  unfold leavesRemainder
  cases row key with
  | integer number => simpa using countP_tmod_eq_one_iff positive number
  | _ => simp

/-- Settings of a source without optimizer statistics. -/
def plainSettings : Settings := { dbUrl := "sqlite", queryMaxRows := 9 }

/-- A table with one integer column. -/
def keyedTable : TableDef :=
  { name := "t", sourceTable := "t", numSplits := 2
    schema := [{ fieldId := 1, name := "k", icebergType := .long, nullable := false }] }

/-- A row with a key and one more value. -/
def keyRow (key more : Value) : Row := fun name => if name = "k" then key else more

theorem splitKey_keyedTable (count index : Nat) :
    splitKey plainSettings (plainSplit keyedTable count none index) = .ok "k" := by
  have key : pkColumn plainSettings keyedTable = .ok "k" := by decide +kernel
  exact key

/-- With three splits, no query returns a row with the key -1. -/
theorem remainder_splits_miss_negative_key :
    ∃ answers, Reads plainSettings .nullsFirst [keyRow (.integer (-1)) .null] 3
        (plainSplit keyedTable 3 none) answers ∧
      ¬ ((List.range 3).flatMap answers).Perm [keyRow (.integer (-1)) .null] := by
  obtain ⟨answers, reads⟩ := @exists_reads plainSettings [keyRow (.integer (-1)) .null] 3
    .nullsFirst (plainSplit keyedTable 3 none) (by decide +kernel)
  refine ⟨answers, reads, fun whole => ?_⟩
  rw [answers_perm_iff reads fun index _ => remainder_tests (by decide)
    (splitKey_keyedTable 3) (by decide +kernel) index] at whole
  exact absurd (whole _ (mem_singleton.mpr rfl)) (by decide +kernel)

theorem remainder_splits_perm_multiples :
    ∃ answers, Reads plainSettings .nullsFirst
        [keyRow (.integer 3) .null, keyRow (.integer (-4)) .null] 2
          (plainSplit keyedTable 2 none) answers ∧
      ((List.range 2).flatMap answers).Perm
        [keyRow (.integer 3) .null, keyRow (.integer (-4)) .null] := by
  obtain ⟨answers, reads⟩ := @exists_reads plainSettings
    [keyRow (.integer 3) .null, keyRow (.integer (-4)) .null] 2 .nullsFirst
    (plainSplit keyedTable 2 none) (by decide +kernel)
  refine ⟨answers, reads, (remainder_splits_perm_iff plainSettings keyedTable none .nullsFirst
    (by decide) (splitKey_keyedTable 2) (by decide +kernel) reads).mpr ?_⟩
  intro row member
  rcases mem_cons.mp member with rfl | later
  · exact ⟨3, rfl, Or.inl (by decide)⟩
  · obtain rfl := mem_singleton.mp later
    exact ⟨-4, rfl, .inr (by decide)⟩

/-! ## By row number -/

/-- The numbered rows that pass are those dealt to the split. -/
theorem scanned_eq_dealt {table : TableDef} {index : Nat} {params : Params}
    (bound : PlainParams settings table count index params) (positive : 1 ≤ count)
    (projection : List Projection) (source key : String) (order : List Row) :
    ((order.zipIdx 1).filter
      ((buildSelectRowNumber projection source key).select.condition.holds params)).map Prod.fst =
        dealt count index order := by
  have holds : ∀ item : Row × Nat,
      (buildSelectRowNumber projection source key).select.condition.holds params
        (item.1, item.2 + 1) = decide (item.2 % count = index) := fun item =>
    Bool.eq_iff_iff.mpr ((buildSelectRowNumber_holds bound positive projection source item.1
      item.2).trans decide_eq_true_iff.symm)
  rw [dealt, zipIdx_succ, filter_map, map_map]
  simp only [Function.comp_def, holds]

section RowNumber

variable {settings : Settings} {table : TableDef} {keyColumn : Option String}
  {collation : Collation} {key : String} {count : Nat}

/-- The order of rows by their key. -/
def keyOrder (collation : Collation) (key : String) (left right : Row) : Prop :=
  collation.le (left key) (right key)

variable (positive : 1 ≤ count)
  (keyed : ∀ index, splitKey settings (plainSplit table count keyColumn index) = .ok key)
  (otherKey : (columnType table key).any IcebergType.isInteger = false) {index : Nat}
  {query : Statement × Params}
  (built : buildSplitQuery settings (plainSplit table count keyColumn index) = .ok query)
  (fits : query.1.select.Fits collation query.2 rows)
include positive keyed otherKey built fits

/-- Every order of the rows by their key gives an answer of a split. -/
theorem exists_answers_of_order {order : List Row}
    (ordered : Partition.Ordering (keyOrder collation key) rows order) :
    ∃ answer, query.1.select.Answers collation query.2 rows answer ∧
      answer.Perm (dealt count index order) := by
  obtain ⟨⟨projection, statement⟩, bound⟩ := select_of_not_integer (keyed index) built otherKey
  rw [statement] at fits ⊢
  have arranges : Arranges collation (fun row => (Expr.column key).eval query.2 row 0) rows order :=
    ordered
  obtain ⟨answer, answered, permuted⟩ := Select.exists_answers rfl arranges fits
  rw [scanned_eq_dealt bound positive] at permuted
  exact ⟨answer, answered, permuted⟩

end RowNumber

/-- Splits by row number make up the table, however each query orders rows with equal
keys, exactly when there is one split or rows with equal keys are equal. -/
theorem rowNumber_splits_perm_iff (settings : Settings) (table : TableDef)
    (keyColumn : Option String) (collation : Collation) {key : String} {count : Nat}
    (positive : 1 ≤ count)
    (keyed : ∀ index, splitKey settings (plainSplit table count keyColumn index) = .ok key)
    (otherKey : (columnType table key).any isInteger = false) {rows : List Row}
    (built : ∀ index < count, ∃ query,
      buildSplitQuery settings (plainSplit table count keyColumn index) = .ok query ∧
        query.1.select.Fits collation query.2 rows) :
    (∀ answers, Reads settings collation rows count (plainSplit table count keyColumn) answers →
        ((List.range count).flatMap answers).Perm rows) ↔
      count = 1 ∨ ∀ left ∈ rows, ∀ right ∈ rows, collation.le (left key) (right key) →
        collation.le (right key) (left key) → left = right := by
  refine .trans ?_ (@flatMap_dealt_perm_iff _ (keyOrder collation key)
    (fun left right => collation.total _ _) collation.trans _ positive rows)
  constructor
  · intro always orders ordered
    have chosen : ∀ index < count, ∃ answer : List Row, (∃ query,
        buildSplitQuery settings (plainSplit table count keyColumn index) = .ok query ∧
          query.1.select.Fits collation query.2 rows ∧
          query.1.select.Answers collation query.2 rows answer) ∧
        answer.Perm (dealt count index (orders index)) := by
      intro index inside
      obtain ⟨query, equation, fits⟩ := built index inside
      obtain ⟨answer, answered, permuted⟩ :=
        exists_answers_of_order positive keyed otherKey equation fits (ordered index inside)
      exact ⟨answer, ⟨query, equation, fits, answered⟩, permuted⟩
    choose! answers spec using chosen
    have whole := always answers ⟨fun index inside => (spec index inside).1⟩
    refine .trans (.flatMap_left _ fun index member => ?_) whole
    exact (spec index (mem_range.mp member)).2.symm
  · intro always answers reads
    have chosen : ∀ index < count, ∃ order : List Row,
        Partition.Ordering (keyOrder collation key) rows order ∧
          (answers index).Perm (dealt count index order) := by
      intro index inside
      obtain ⟨query, equation, fits, answered⟩ := reads.answered index inside
      obtain ⟨⟨projection, statement⟩, bound⟩ :=
        select_of_not_integer (keyed index) equation otherKey
      rw [statement] at fits answered
      obtain ⟨scanned, ⟨order, arranges, rfl⟩, permuted⟩ := answered.perm_scanned fits
      rw [scanned_eq_dealt bound positive] at permuted
      exact ⟨order, arranges, permuted⟩
    choose! orders spec using chosen
    have whole := always orders fun index inside => (spec index inside).1
    refine .trans (.flatMap_left _ fun index member => ?_) whole
    exact (spec index (mem_range.mp member)).2

/-- A table with a text key. -/
def textTable : TableDef :=
  { name := "t", sourceTable := "t", numSplits := 2
    schema := [{ fieldId := 1, name := "k", icebergType := .string },
      { fieldId := 2, name := "v", icebergType := .long }] }

theorem splitKey_textTable (count index : Nat) :
    splitKey plainSettings (plainSplit textTable count none index) = .ok "k" := by
  have key : pkColumn plainSettings textTable = .ok "k" := by decide +kernel
  exact key

theorem built_textTable (rows : List Row) (short : rows.length ≤ 2) : ∀ index < 2, ∃ query,
    buildSplitQuery plainSettings (plainSplit textTable 2 none index) = .ok query ∧
      query.1.select.Fits .nullsFirst query.2 rows := by
  intro index inside
  have succeeds : ∀ index < 2, (buildSplitQuery plainSettings
      (plainSplit textTable 2 none index)).isOk = true := by decide +kernel
  cases equation : buildSplitQuery plainSettings (plainSplit textTable 2 none index) with
  | error failure =>
    have contradiction := succeeds index inside
    rw [equation] at contradiction
    cases contradiction
  | ok query =>
    have cap : 2 ≤ (textTable.effectiveMaxRows plainSettings).toNat := by decide +kernel
    refine ⟨query, rfl, Select.fits_of_length_le ?_⟩
    rw [limit_of_built equation]
    exact short.trans cap

/-- Two rows that share a key but not their other value. -/
def tiedRows : Row × Row :=
  (keyRow (.text "a") (.integer 1), keyRow (.text "a") (.integer 2))

theorem tiedRows_ne : tiedRows.1 ≠ tiedRows.2 := by
  intro same
  have values : tiedRows.1 "v" = tiedRows.2 "v" := congrFun same "v"
  exact absurd values (by decide +kernel)

/-- Two splits may both return the first of the two rows and lose the second one. -/
theorem rowNumber_splits_lose_tied_row :
    ∃ answers, Reads plainSettings .nullsFirst [tiedRows.1, tiedRows.2] 2
        (plainSplit textTable 2 none) answers ∧
      ¬ ((List.range 2).flatMap answers).Perm [tiedRows.1, tiedRows.2] := by
  have text : (columnType textTable "k").any isInteger = false := by decide +kernel
  have tie : ∀ left right : Row, left "k" = right "k" →
      keyOrder .nullsFirst "k" left right := fun left right same =>
    (congrArg Value.rank same).le
  have forth : Partition.Ordering (keyOrder .nullsFirst "k") [tiedRows.1, tiedRows.2]
      [tiedRows.1, tiedRows.2] :=
    ⟨.refl _, by simpa using tie tiedRows.1 tiedRows.2 rfl⟩
  have back : Partition.Ordering (keyOrder .nullsFirst "k") [tiedRows.1, tiedRows.2]
      [tiedRows.2, tiedRows.1] :=
    ⟨.swap _ _ _, by simpa using tie tiedRows.2 tiedRows.1 rfl⟩
  obtain ⟨zero, zeroBuilt, zeroFits⟩ := built_textTable [tiedRows.1, tiedRows.2] (by decide) 0 (by decide)
  obtain ⟨one, oneBuilt, oneFits⟩ := built_textTable [tiedRows.1, tiedRows.2] (by decide) 1 (by decide)
  obtain ⟨first, firstAnswers, firstPerm⟩ := exists_answers_of_order (by decide)
    (splitKey_textTable 2) text zeroBuilt zeroFits forth
  obtain ⟨second, secondAnswers, secondPerm⟩ := exists_answers_of_order (by decide)
    (splitKey_textTable 2) text oneBuilt oneFits back
  refine ⟨fun index => if index = 0 then first else second, ⟨fun index inside => ?_⟩, ?_⟩
  · rcases index with _ | _ | index
    · exact ⟨zero, zeroBuilt, zeroFits, firstAnswers⟩
    · exact ⟨one, oneBuilt, oneFits, secondAnswers⟩
    · omega
  · intro whole
    have lost : tiedRows.2 ∈ (List.range 2).flatMap fun index =>
        if index = 0 then first else second :=
      whole.mem_iff.mpr (mem_cons_of_mem _ (mem_singleton.mpr rfl))
    have either : tiedRows.2 ∈ first ∨ tiedRows.2 ∈ second := by
      simpa [range_succ] using lost
    rw [firstPerm.mem_iff, secondPerm.mem_iff] at either
    have dealtOnce : dealt 2 0 [tiedRows.1, tiedRows.2] = [tiedRows.1] ∧
        dealt 2 1 [tiedRows.2, tiedRows.1] = [tiedRows.1] := ⟨rfl, rfl⟩
    rw [dealtOnce.1, dealtOnce.2, or_self, mem_singleton] at either
    exact tiedRows_ne either.symm

theorem rowNumber_splits_perm_distinct :
    (columnType textTable "k").any isInteger = false ∧
    ∀ answers, Reads plainSettings .nullsFirst
        [keyRow (.text "a") .null, keyRow (.text "b") .null] 2 (plainSplit textTable 2 none) answers →
      ((List.range 2).flatMap answers).Perm
        [keyRow (.text "a") .null, keyRow (.text "b") .null] := by
  have otherKey : (columnType textTable "k").any isInteger = false := by
    decide +kernel
  refine ⟨otherKey, (rowNumber_splits_perm_iff plainSettings textTable none .nullsFirst (by decide)
    (splitKey_textTable 2) otherKey (built_textTable _ (by decide))).mpr (.inr ?_)⟩
  intro left leftMember right rightMember forth back
  have ranks : (left "k").rank = (right "k").rank := le_antisymm forth back
  rcases mem_cons.mp leftMember with rfl | leftLater <;>
    rcases mem_cons.mp rightMember with rfl | rightLater
  · rfl
  · obtain rfl := mem_singleton.mp rightLater
    exact absurd ranks (by decide +kernel)
  · obtain rfl := mem_singleton.mp leftLater
    exact absurd ranks (by decide +kernel)
  · rw [mem_singleton.mp leftLater, mem_singleton.mp rightLater]

end ShortcutProxy.SplitPartition
