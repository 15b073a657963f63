import Mathlib

/-!
# Streamed reads of a split

A split's query is streamed in batches, and a failed execution may be followed by
another. The consumer cannot give batches back, so a stream has to deliver the rows of
one execution, and all of them if it ends without an error.
-/

namespace ShortcutProxy.StreamedReads

/-- How an execution fails. A cancellation is no `Exception`. -/
inductive Failure where
  | cancelled
  | readPointExpired (text : String)
  | other (text : String)
  deriving DecidableEq, Repr

def Failure.text : Failure → String
  | .cancelled => ""
  | .readPointExpired text | .other text => text

/-- The rows of the query, and after how many batches the source fails: 0 if it cannot
be reached or refuses the query. -/
structure Execution (Row : Type) where
  rows : List Row
  failure : Option (Nat × Failure) := none

inductive Ending where
  | finished
  | raised (failure : Failure)
  | sourceUnavailable (message : String)
  deriving DecidableEq, Repr

variable {Row : Type}

def batches (batchRows : Nat) (rows : List Row) : List (List Row) :=
  (List.range ((rows.length + batchRows - 1) / batchRows)).map fun i =>
    (rows.drop (i * batchRows)).take batchRows

/-- The batches that are yielded, and the failure that ends them. -/
def Execution.stream (batchRows : Nat) (execution : Execution Row) :
    List (List Row) × Option Failure :=
  let all := batches batchRows execution.rows
  match execution.failure with
  | none => (all, none)
  | some (fetched, failure) => (all.take fetched, some failure)

/-- `_execute_once` fetches every row before the first batch. -/
def Execution.executeOnce (execution : Execution Row) : Execution Row :=
  { execution with failure := execution.failure.map fun failed => (0, failed.2) }

/-- The loop over `range(max_retries + 1)`, from an attempt on. `permanent` failures are
not retried, and `replace` may fail before the next attempt. -/
def attempts (maxRetries batchRows : Nat) (source : Nat → Execution Row)
    (permanent : Failure → Bool) (replace : Nat → Option Failure) (raise : Failure → Ending) :
    Nat → Nat → List (List Row) × Ending
  | 0, _ => ([], .finished)
  | left + 1, attempt =>
    match (source attempt).stream batchRows with
    | (delivered, none) => (delivered, .finished)
    | (delivered, some failure) =>
      if permanent failure ∨ delivered ≠ [] ∨ maxRetries ≤ attempt then
        (delivered, raise failure)
      else match replace attempt with
        | some failure => (delivered, .raised failure)
        | none =>
          let (later, ending) :=
            attempts maxRetries batchRows source permanent replace raise left (attempt + 1)
          (delivered ++ later, ending)

/-- `stream_split_query`. -/
def streamSplitQuery (asyncMode : Bool) (maxRetries batchRows : Nat)
    (source : Nat → Execution Row) : List (List Row) × Ending :=
  attempts maxRetries batchRows
    (fun attempt => if asyncMode then source attempt else (source attempt).executeOnce)
    (· = .cancelled) (fun _ => none)
    (fun failure =>
      if failure = .cancelled then .raised failure
      else .sourceUnavailable ("streamed SQL query failed: " ++ failure.text))
    (maxRetries + 1) 0

/-- `_PostgresJoinedReadSession._stream`, which joins the snapshot again to retry. -/
def joinedStream (retries batchRows : Nat) (source : Nat → Execution Row)
    (replace : Nat → Option Failure) : List (List Row) × Ending :=
  attempts retries batchRows source
    (fun
      | .cancelled | .readPointExpired _ => true
      | .other _ => false)
    replace .raised (retries + 1) 0

/-- The batches are rows of one of the executions, all of them after a normal end. -/
def OfOneExecution (rows : Nat → List Row) (retries : Nat)
    (streamed : List (List Row) × Ending) : Prop :=
  ∃ attempt ≤ retries, streamed.1.flatten <+: rows attempt ∧
    (streamed.2 = .finished → streamed.1.flatten = rows attempt)

theorem flatten_slices (batchRows count : Nat) (rows : List Row) :
    ((List.range count).map fun i => (rows.drop (i * batchRows)).take batchRows).flatten =
      rows.take (count * batchRows) := by
  induction count with
  | zero => simp
  | succ count ih =>
    rw [List.range_succ, List.map_append, List.flatten_append, ih, Nat.succ_mul, List.take_add]
    simp

theorem flatten_batches {batchRows : Nat} (positive : 0 < batchRows) (rows : List Row) :
    (batches batchRows rows).flatten = rows := by
  have reached := Nat.lt_mul_div_succ (rows.length + batchRows - 1) positive
  rw [batches, flatten_slices, List.take_of_length_le]
  rw [Nat.mul_succ, Nat.mul_comm] at reached
  omega

/-- What an execution yields, and that it yields all unless it fails. -/
theorem flatten_stream {batchRows : Nat} (positive : 0 < batchRows) (execution : Execution Row) :
    (execution.stream batchRows).1.flatten <+: execution.rows ∧
      ((execution.stream batchRows).2 = none →
        (execution.stream batchRows).1.flatten = execution.rows) := by
  unfold Execution.stream
  cases execution.failure with
  | none =>
    dsimp only
    rw [flatten_batches positive]
    exact ⟨List.prefix_rfl, fun _ => rfl⟩
  | some failed =>
    refine ⟨?_, nofun⟩
    dsimp only
    rw [batches, ← List.map_take, List.take_range, flatten_slices]
    exact List.take_prefix _ execution.rows

/-- A retry follows an attempt that yielded nothing, so that what is delivered comes
from the attempts after it. The last attempt is never retried. -/
theorem attempts_ofOneExecution {batchRows : Nat} (positive : 0 < batchRows)
    (source : Nat → Execution Row) (permanent : Failure → Bool) (replace : Nat → Option Failure)
    {raise : Failure → Ending} (raises : ∀ failure, raise failure ≠ .finished)
    {maxRetries left attempt : Nat} (within : attempt ≤ maxRetries)
    (last : attempt + left = maxRetries + 1) :
    OfOneExecution (fun attempt => (source attempt).rows) maxRetries
      (attempts maxRetries batchRows source permanent replace raise left attempt) := by
  induction left generalizing attempt with
  | zero => omega
  | succ left ih =>
    have stream := flatten_stream positive (source attempt)
    unfold attempts
    split
    next yielded =>
      rw [yielded] at stream
      exact ⟨attempt, within, stream.1, fun _ => stream.2 rfl⟩
    next delivered failure failed =>
      rw [failed] at stream
      by_cases final : permanent failure ∨ delivered ≠ [] ∨ maxRetries ≤ attempt
      · rw [if_pos final]
        exact ⟨attempt, within, stream.1, fun ended => absurd ended (raises failure)⟩
      · rw [if_neg final]
        cases replace attempt with
        | some _ => exact ⟨attempt, within, stream.1, nofun⟩
        | none =>
          obtain ⟨_, nothing, more⟩ : _ ∧ delivered = [] ∧ attempt < maxRetries := by
            simpa using final
          rw [nothing]
          exact ih more (by omega)

/-- For every course of the source's failures. -/
theorem streams_one_execution (maxRetries : Nat) {batchRows : Nat} (positive : 0 < batchRows)
    (source : Nat → Execution Row) :
    (∀ asyncMode, OfOneExecution (fun attempt => (source attempt).rows) maxRetries
      (streamSplitQuery asyncMode maxRetries batchRows source)) ∧
    ∀ replace, OfOneExecution (fun attempt => (source attempt).rows) maxRetries
      (joinedStream maxRetries batchRows source replace) := by
  constructor
  · intro asyncMode
    have streamed := attempts_ofOneExecution positive
      (fun attempt => if asyncMode then source attempt else (source attempt).executeOnce)
    cases asyncMode <;> exact streamed _ _ (by grind) (Nat.zero_le _) (Nat.zero_add _)
  · intro replace
    apply attempts_ofOneExecution positive source _ replace ?_ (Nat.zero_le _) (Nat.zero_add _)
    exact fun _ => nofun

/-- The second execution fails after a batch, and no third one is made. -/
theorem streams_one_execution_broken :
    let source := fun attempt => Execution.mk [1, 2, 3] (some (attempt, .other "reset"))
    streamSplitQuery true 5 2 source =
        ([[1, 2]], .sourceUnavailable "streamed SQL query failed: reset") ∧
      OfOneExecution (fun _ => [1, 2, 3]) 5 (streamSplitQuery true 5 2 source) :=
  ⟨by decide, (streams_one_execution 5 (by decide) _).1 true⟩

end ShortcutProxy.StreamedReads
