import Mathlib

/-!
# Selections from a bag of rows

A small fragment of SQL with the meaning that databases give it: scalar
expressions over a row and bind parameters, comparisons in three-valued logic, and
a selection that filters, orders and limits the rows of a table. A selection may
number the rows of the table first, by their position in an order.

Ordering a bag leaves the order of rows with equal keys open, so a selection has
several admissible answers, and two executions of it need not agree. What is left
open and what is not is stated once here. The order of values, with the place of
NULL in it, is a parameter: databases differ in it.
-/

namespace ShortcutProxy.Relational

/-! ## Values and expressions -/

/-- Text formats that state a day or a moment completely. -/
inductive TextFormat where
  | day
  | moment
  | zonedMoment
  deriving DecidableEq, Repr

/-- A column value or a bind value. Days and microseconds are counted from a fixed
origin; a written value is the text of such a count in a format; `other` stands for
the values of types that are never computed with. -/
inductive Value where
  | null
  | integer (number : Int)
  | date (day : Int)
  | timestamp (micros : Int)
  | text (characters : String)
  | written (format : TextFormat) (count : Int)
  | other (code : Nat)
  deriving DecidableEq, Repr

/-- Comparison of two values. It is unknown as soon as one of them is NULL, and values
of different types do not compare. -/
def Value.compare : Value → Value → Option Ordering
  | .integer left, .integer right => some (Ord.compare left right)
  | .date left, .date right => some (Ord.compare left right)
  | .timestamp left, .timestamp right => some (Ord.compare left right)
  | .text left, .text right => some (Ord.compare left right)
  | _, _ => none

/-- A row of a table, by column name. -/
abbrev Row := String → Value

/-- Bind parameters by name. -/
abbrev Params := String → Value

/-- Scalar expressions. `rowNumber` is the position that a numbering gave the row. -/
inductive Expr where
  | column (name : String)
  | rowNumber
  | param (name : String)
  | parse (format : TextFormat) (name : String)
  | castInteger (operand : Expr)
  | remainder (left right : Expr)
  | lessOne (operand : Expr)
  deriving DecidableEq, Repr

/-- The value that a text in a format states. -/
def Value.parsed (format : TextFormat) : Value → Value
  | .written actual count =>
    if actual = format then
      match format with
      | .day => .date count
      | .moment | .zonedMoment => .timestamp count
    else .null
  | _ => .null

/-- Integer remainder with the sign of the dividend, as SQL has it. -/
def Value.remainder : Value → Value → Value
  | .integer left, .integer right => if right = 0 then .null else .integer (left.tmod right)
  | _, _ => .null

theorem Value.remainder_integer {divisor : Int} (nonzero : divisor ≠ 0) (number : Int) :
    (Value.integer number).remainder (.integer divisor) = .integer (number.tmod divisor) :=
  if_neg nonzero

/-- The value of an expression at a row with a row number. -/
def Expr.eval (params : Params) (row : Row) (number : Nat) : Expr → Value
  | .column name => row name
  | .rowNumber => .integer number
  | .param name => params name
  | .parse format name => (params name).parsed format
  | .castInteger operand =>
    match operand.eval params row number with
    | .integer value => .integer value
    | _ => .null
  | .remainder left right =>
    (left.eval params row number).remainder (right.eval params row number)
  | .lessOne operand =>
    match operand.eval params row number with
    | .integer value => .integer (value - 1)
    | _ => .null

/-- Conditions of a WHERE clause. -/
inductive Cond where
  | equal (left right : Expr)
  | atLeast (left right : Expr)
  | lessThan (left right : Expr)
  | both (left right : Cond)
  deriving DecidableEq, Repr

/-- Conjunction in three-valued logic; `none` is unknown. -/
def conjunction : Option Bool → Option Bool → Option Bool
  | some false, _ | _, some false => some false
  | some true, some true => some true
  | _, _ => none

theorem conjunction_eq_true {left right : Option Bool} :
    conjunction left right = some true ↔ left = some true ∧ right = some true := by
  rcases left with _ | _ | _ <;> rcases right with _ | _ | _ <;> simp [conjunction]

/-- The truth value of a condition. -/
def Cond.eval (params : Params) (row : Row) (number : Nat) : Cond → Option Bool
  | .equal left right =>
    ((left.eval params row number).compare (right.eval params row number)).map (· = .eq)
  | .atLeast left right =>
    ((left.eval params row number).compare (right.eval params row number)).map (· ≠ .lt)
  | .lessThan left right =>
    ((left.eval params row number).compare (right.eval params row number)).map (· = .lt)
  | .both left right => conjunction (left.eval params row number) (right.eval params row number)

/-- A row passes a WHERE clause only when the condition is true. -/
def Cond.holds (params : Params) (condition : Cond) (item : Row × Nat) : Bool :=
  condition.eval params item.1 item.2 = some true

variable {params : Params} {item : Row × Nat}

theorem Cond.holds_both {left right : Cond} :
    (Cond.both left right).holds params item =
      (left.holds params item && right.holds params item) := by
  simp [Cond.holds, Cond.eval, conjunction_eq_true]

theorem Cond.holds_atLeast {left right : Expr} :
    (Cond.atLeast left right).holds params item = true ↔ ∃ order,
      (left.eval params item.1 item.2).compare (right.eval params item.1 item.2) = some order ∧
        order ≠ .lt := by
  simp [Cond.holds, Cond.eval]

theorem Cond.holds_lessThan {left right : Expr} :
    (Cond.lessThan left right).holds params item = true ↔
      (left.eval params item.1 item.2).compare (right.eval params item.1 item.2) = some .lt := by
  simp [Cond.holds, Cond.eval]

/-! ## Selections -/

/-- How a database orders values, NULL included. -/
structure Collation where
  le : Value → Value → Prop
  total : ∀ left right, le left right ∨ le right left
  trans : ∀ {first second third}, le first second → le second third → le first third

/-- The place of a value in an order with NULL first and one type after another. -/
def Value.rank : Value → ℕ ×ₗ ℤ ×ₗ String
  | .null => toLex (0, toLex (0, ""))
  | .integer number => toLex (1, toLex (number, ""))
  | .date day => toLex (2, toLex (day, ""))
  | .timestamp micros => toLex (3, toLex (micros, ""))
  | .text characters => toLex (4, toLex (0, characters))
  | .written _ count => toLex (5, toLex (count, ""))
  | .other code => toLex (6, toLex (code, ""))

/-- The order with NULL first. -/
def Collation.nullsFirst : Collation where
  le left right := left.rank ≤ right.rank
  total left right := le_total left.rank right.rank
  trans one two := le_trans one two

/-- `SELECT … WHERE condition ORDER BY orderBy` with a row limit, over a table or over
the table with its rows numbered in the order of an expression. -/
structure Select where
  numbering : Option Expr := none
  condition : Cond
  orderBy : Expr
  limit : Expr
  deriving DecidableEq, Repr

/-- The number of rows a limit lets through. -/
def Value.limit : Value → Nat
  | .integer count => count.toNat
  | _ => 0

section Semantics

variable (collation : Collation) (params : Params)

/-- An order of the items by a key. Items with equal keys may come in any order. -/
def Arranges {α : Type} (key : α → Value) (items arranged : List α) : Prop :=
  arranged.Perm items ∧ arranged.Pairwise fun first second => collation.le (key first) (key second)

/-- The rows that a selection filters, each with its row number. -/
def Select.Scans (select : Select) (rows : List Row) (scanned : List (Row × Nat)) : Prop :=
  match select.numbering with
  | none => scanned = rows.map fun row => (row, 0)
  | some key => ∃ order, Arranges collation (fun row => key.eval params row 0) rows order ∧
      scanned = order.zipIdx 1

/-- The list of source rows is an admissible answer of the selection. -/
def Select.Answers (select : Select) (rows answer : List Row) : Prop :=
  ∃ scanned arranged, select.Scans collation params rows scanned ∧
    Arranges collation (fun item : Row × Nat => select.orderBy.eval params item.1 item.2)
      (scanned.filter (select.condition.holds params)) arranged ∧
    answer = (arranged.take (select.limit.eval params (fun _ => .null) 0).limit).map Prod.fst

/-- No execution of the selection runs into its row limit. -/
def Select.Fits (select : Select) (rows : List Row) : Prop :=
  ∀ scanned, select.Scans collation params rows scanned →
    (scanned.filter (select.condition.holds params)).length ≤
      (select.limit.eval params (fun _ => .null) 0).limit

end Semantics

/-- Every list can be arranged. -/
theorem exists_arranges {α : Type} (collation : Collation) (key : α → Value) (items : List α) :
    ∃ arranged, Arranges collation key items arranged := by
  classical
  refine ⟨items.mergeSort fun first second => decide (collation.le (key first) (key second)),
    List.mergeSort_perm _ _, ?_⟩
  have sorted := @List.pairwise_mergeSort _
    (fun first second => decide (collation.le (key first) (key second)))
    (fun first second third one two => decide_eq_true
      (collation.trans (of_decide_eq_true one) (of_decide_eq_true two)))
    (fun first second => by
      rw [Bool.or_eq_true, decide_eq_true_iff, decide_eq_true_iff]
      exact collation.total _ _) items
  exact sorted.imp of_decide_eq_true

section Answers

variable {collation : Collation} {params : Params} {select : Select} {rows answer : List Row}

/-- Within its limit a selection returns exactly the rows that pass its condition. -/
theorem Select.Answers.perm_scanned (answers : select.Answers collation params rows answer)
    (fits : select.Fits collation params rows) :
    ∃ scanned, select.Scans collation params rows scanned ∧
      answer.Perm ((scanned.filter (select.condition.holds params)).map Prod.fst) := by
  obtain ⟨scanned, arranged, scans, arranges, rfl⟩ := answers
  have whole : arranged.length ≤ (select.limit.eval params (fun _ => .null) 0).limit := by
    rw [arranges.1.length_eq]
    exact fits scanned scans
  rw [List.take_of_length_le whole]
  exact ⟨scanned, scans, arranges.1.map _⟩

/-- Without a numbering these are the rows of the table that pass the condition. -/
theorem Select.Answers.perm_filter (answers : select.Answers collation params rows answer)
    (fits : select.Fits collation params rows) (plain : select.numbering = none) :
    answer.Perm (rows.filter fun row => select.condition.holds params (row, 0)) := by
  obtain ⟨scanned, scans, permuted⟩ := answers.perm_scanned fits
  rw [Select.Scans, plain] at scans
  subst scans
  rwa [List.filter_map, List.map_map, Function.comp_def, List.map_id'] at permuted

theorem Select.length_scanned {scanned : List (Row × Nat)}
    (scans : select.Scans collation params rows scanned) : scanned.length = rows.length := by
  unfold Select.Scans at scans
  split at scans
  · rw [scans, List.length_map]
  · obtain ⟨order, arranges, rfl⟩ := scans
    rw [List.length_zipIdx, arranges.1.length_eq]

/-- A limit that the table does not exceed is never hit. -/
theorem Select.fits_of_length_le
    (short : rows.length ≤ (select.limit.eval params (fun _ => .null) 0).limit) :
    select.Fits collation params rows := fun _ scans =>
  (List.length_filter_le _ _).trans ((Select.length_scanned scans).trans_le short)

theorem Select.exists_scans (collation : Collation) (params : Params) (select : Select)
    (rows : List Row) : ∃ scanned, select.Scans collation params rows scanned := by
  unfold Select.Scans
  split
  · exact ⟨_, rfl⟩
  · rename_i key _
    obtain ⟨order, arranges⟩ := exists_arranges collation (fun row => key.eval params row 0) rows
    exact ⟨_, order, arranges, rfl⟩

/-- Every selection has an answer. -/
theorem Select.exists_answer (collation : Collation) (params : Params) (select : Select)
    (rows : List Row) : ∃ answer, select.Answers collation params rows answer := by
  obtain ⟨scanned, scans⟩ := Select.exists_scans collation params select rows
  obtain ⟨arranged, ordered⟩ := exists_arranges collation
    (fun item : Row × Nat => select.orderBy.eval params item.1 item.2)
    (scanned.filter (select.condition.holds params))
  exact ⟨_, scanned, arranged, scans, ordered, rfl⟩

/-- Every numbering of the rows gives an answer. -/
theorem Select.exists_answers {key : Expr} (numbered : select.numbering = some key)
    {order : List Row} (arranges : Arranges collation (fun row => key.eval params row 0) rows order)
    (fits : select.Fits collation params rows) :
    ∃ answer, select.Answers collation params rows answer ∧
      answer.Perm (((order.zipIdx 1).filter (select.condition.holds params)).map Prod.fst) := by
  have scans : select.Scans collation params rows (order.zipIdx 1) := by
    rw [Select.Scans, numbered]
    exact ⟨order, arranges, rfl⟩
  obtain ⟨arranged, ordered⟩ := exists_arranges collation
    (fun item : Row × Nat => select.orderBy.eval params item.1 item.2)
    ((order.zipIdx 1).filter (select.condition.holds params))
  refine ⟨_, ⟨_, arranged, scans, ordered, rfl⟩, ?_⟩
  have whole : arranged.length ≤ (select.limit.eval params (fun _ => .null) 0).limit := by
    rw [ordered.1.length_eq]
    exact fits _ scans
  rw [List.take_of_length_le whole]
  exact ordered.1.map _

end Answers

end ShortcutProxy.Relational
