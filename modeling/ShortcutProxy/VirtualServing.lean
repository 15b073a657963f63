import Mathlib

/-!
# Serving tables in virtual mode

In virtual mode no bytes are kept: a split is read from the source again whenever it is
asked for. The first request for a table materializes its splits and then reads the first
one once more; when the two reads differ, the request fails. What the check leaves behind
are split descriptors that look materialized, and a later request looks at nothing else.

Requests are handled one after the other. What a read of the source or of a cache returns
is part of the request, so the source may change between any two reads.
-/

namespace ShortcutProxy.VirtualServing

/-- The sizes that the split descriptors of a snapshot have so far. -/
abbrev Splits := List (Option Nat)

/-- A request for an object of a table and what the reads behind it return: the size of
each split, the digest of the first split if it is still cached, that of the repeated read
if it succeeds, and whether the object is there in the end. -/
structure Request where
  table : String
  sizes : Nat → Option Nat
  first : Option String
  second : Option String
  found : Bool

/-- What a request did: whether it served an object of the table, and the outcome of the
determinism check if there was one. -/
structure Report where
  table : String
  served : Bool
  check : Option Bool
  deriving DecidableEq

/-- `_is_materialized`. -/
def isMaterialized (splits : Splits) : Bool := !splits.isEmpty && splits.all Option.isSome

/-- `_materialize_split` for the splits in order, up to the first read that fails. -/
def materialize (sizes : Nat → Option Nat) : Nat → Splits → Splits × Bool
  | _, [] => ([], true)
  | index, split :: rest =>
    match sizes index with
    | none => (split :: rest, false)
    | some size =>
      let (later, done) := materialize sizes (index + 1) rest
      (some size :: later, done)

/-- `_verify_determinism`: whether it returns, and what it found. -/
def Request.verifyDeterminism (request : Request) : Bool × Option Bool :=
  match request.first, request.second with
  | none, _ => (true, none)
  | some _, none => (false, none)
  | some first, some second => (first = second, some (first = second))

/-- `ensure_snapshot_materialized`: the descriptors afterwards, whether it returns, and the
outcome of the check. -/
def Request.ensure (request : Request) (splits : Splits) : Splits × Bool × Option Bool :=
  if isMaterialized splits then (splits, true, none)
  else
    match materialize request.sizes 0 splits with
    | (later, false) => (later, false, none)
    | (later, true) => if later.isEmpty then (later, true, none) else (later, request.verifyDeterminism)

/-- The report of a request for a table with these descriptors. -/
def Request.report (request : Request) (splits : Splits) : Report :=
  let (passed, check) := (request.ensure splits).2
  ⟨request.table, passed && request.found, check⟩

inductive Event where
  | request (request : Request)
  | replaced (table : String) (splits : Splits)

/-- The descriptors of every table, and the reports so far. -/
structure State where
  splits : String → Splits
  reports : List Report := []

/-- One event: a request, or another snapshot that takes the place of a table's. -/
def State.step (state : State) : Event → State
  | .request request =>
    { splits := Function.update state.splits request.table
        (request.ensure (state.splits request.table)).1
      reports := state.reports ++ [request.report (state.splits request.table)] }
  | .replaced table splits => { state with splits := Function.update state.splits table splits }

def State.run (state : State) (events : List Event) : State := events.foldl .step state

/-- The request finds no object, or it meets descriptors that are not materialized, and
either a read fails or the check can compare. -/
def Request.Guarded (request : Request) (splits : Splits) : Prop :=
  request.found = false ∨ isMaterialized splits = false ∧
    ((materialize request.sizes 0 splits).2 = false ∨ splits ≠ [] ∧ request.first ≠ none)

section Steps

variable {request : Request} {splits : Splits} {state : State}

end Steps

end ShortcutProxy.VirtualServing
