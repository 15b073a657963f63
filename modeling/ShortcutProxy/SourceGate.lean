import Mathlib

/-!
# The gate of a source

Queries against a source pass a semaphore of `SOURCE_MAX_CONCURRENCY` permits, each
connection its own. On a synchronous driver a stream reads its rows through
`_execute_once`, which passes the gate again under the stream's own permit. Calls take
steps in any order, and a free permit may go to any call that waits.
-/

namespace ShortcutProxy.SourceGate

structure Connection where
  asyncMode : Bool
  maxRetries : Int
  sourceMaxConcurrency : Int

inductive Query where
  | streamSplitQuery
  | executeSplitQuery (maxRetries : Option Int)
  | executeScalar
  deriving DecidableEq

/-- Where a call stands: before the gate, under it, before and under the gate of
`_execute_once` with the stream's permit in hand, or asleep between two attempts. -/
inductive Point where
  | gate
  | underGate
  | innerGate
  | underInnerGate
  | backoff
  | done
  deriving DecidableEq

structure Call where
  query : Query
  attempt : Nat := 0
  yieldedBatch : Bool := false
  point : Point := .gate

/-- The permits a call holds. -/
def Call.held (call : Call) : Nat :=
  match call.point with
  | .underGate | .innerGate => 1
  | .underInnerGate => 2
  | .gate | .backoff | .done => 0

def Call.waits (call : Call) : Bool :=
  call.point = .gate ∨ call.point = .innerGate

variable (connection : Connection)

/-- The length of `range(max_retries + 1)`. A scalar query is not retried. -/
def Connection.attempts : Query → Nat
  | .streamSplitQuery => (connection.maxRetries + 1).toNat
  | .executeSplitQuery maxRetries => (maxRetries.getD connection.maxRetries + 1).toNat
  | .executeScalar => 1

def Connection.begin (query : Query) : Call :=
  { query, point := if connection.attempts query = 0 then .done else .gate }

/-- A timeout is a failure. A cancellation, or a consumer that stops, ends the call
wherever it stands. -/
inductive Event where
  | admitted
  | yielded
  | returned
  | failed
  | slept
  | cancelled
  deriving DecidableEq

def Connection.next (call : Call) : Event → Option Call
  | .admitted =>
    match call.point with
    | .gate =>
      if call.query = .streamSplitQuery ∧ connection.asyncMode = false then
        some { call with point := .innerGate }
      else some { call with point := .underGate }
    | .innerGate => some { call with point := .underInnerGate }
    | _ => none
  | .yielded =>
    if call.query = .streamSplitQuery ∧ call.point = .underGate then
      some { call with yieldedBatch := true }
    else none
  | .returned =>
    match call.point with
    | .underInnerGate => some { call with point := .underGate }
    | .underGate => some { call with point := .done }
    | _ => none
  | .failed =>
    if call.point = .underGate ∨ call.point = .innerGate ∨ call.point = .underInnerGate then
      if call.yieldedBatch = false ∧ call.attempt + 1 < connection.attempts call.query then
        some { call with point := .backoff }
      else some { call with point := .done }
    else none
  | .slept =>
    if call.point = .backoff then
      some { call with attempt := call.attempt + 1, point := .gate }
    else none
  | .cancelled => some { call with point := .done }

/-- Without a positive limit the gate is a null gate. -/
def Connection.admits (calls : List Call) : Prop :=
  connection.sourceMaxConcurrency ≤ 0 ∨
    ((calls.map Call.held).sum : Int) < connection.sourceMaxConcurrency

/-- One call takes a step. -/
inductive Step (connection : Connection) : List Call → List Call → Prop
  | of {before after : List Call} {call moved : Call} (event : Event)
      (next : connection.next call event = some moved)
      (free : event = .admitted → connection.admits (before ++ call :: after)) :
      Step connection (before ++ call :: after) (before ++ moved :: after)

/-- The states that calls of these queries can come to. -/
def Reaches (queries : List Query) : List Call → Prop :=
  Relation.ReflTransGen (Step connection) (queries.map connection.begin)

variable {connection : Connection}

/-- A call makes an attempt only if its query has one, and comes to an inner gate only in
a stream over a synchronous driver. -/
structure Call.Sound (connection : Connection) (call : Call) : Prop where
  attempted : call.point ≠ .done → connection.attempts call.query ≠ 0
  inner : call.point = .innerGate →
    call.query = .streamSplitQuery ∧ connection.asyncMode = false

theorem Call.Sound.begin (query : Query) : Call.Sound connection (connection.begin query) := by
  unfold Connection.begin
  split
  case isTrue none => exact ⟨fun apart => absurd rfl apart, nofun⟩
  case isFalse some => exact ⟨fun _ => some, nofun⟩

theorem Call.Sound.next {call moved : Call} {event : Event} (sound : call.Sound connection)
    (next : connection.next call event = some moved) :
    moved.query = call.query ∧ moved.Sound connection := by
  have attempted := sound.attempted
  have inner := sound.inner
  cases event <;> grind [Connection.next, Call.Sound]

/-- A run keeps the queries, and its calls sound. -/
theorem Reaches.sound {queries : List Query} {calls : List Call}
    (reached : Reaches connection queries calls) :
    calls.map Call.query = queries ∧ ∀ call ∈ calls, call.Sound connection := by
  induction reached with
  | refl =>
    refine ⟨?_, ?_⟩
    · rw [List.map_map]
      exact List.map_id' _
    · intro call listed
      obtain ⟨query, -, rfl⟩ := List.mem_map.mp listed
      exact .begin query
  | tail _ step ih =>
    obtain ⟨same, sound⟩ := ih
    cases step with
    | of event next free =>
      obtain ⟨kept, moved⟩ := (sound _ (by simp)).next next
      refine ⟨by simpa [kept] using same, ?_⟩
      intro other listed
      rw [List.mem_append, List.mem_cons] at listed
      obtain before | rfl | after := listed
      · exact sound other (by simp [before])
      · exact moved
      · exact sound other (by simp [after])

end ShortcutProxy.SourceGate
