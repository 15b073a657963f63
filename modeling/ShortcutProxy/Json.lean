import Mathlib

/-!
# JSON values

A dictionary is kept as the list of its fields. The text that a value is written as is
not fixed: a library writes values as texts of some type and reads them back, and its
laws hold for the values whose dictionaries name each key once.
-/

namespace ShortcutProxy.Json

/-- JSON values. A number with a fraction is kept as it is written. -/
inductive Value where
  | null
  | bool (flag : Bool)
  | int (number : Int)
  | float (digits : String)
  | text (characters : String)
  | array (items : List Value)
  | object (fields : List (String × Value))

/-- Every dictionary in the value names each key once. -/
inductive Value.Proper : Value → Prop where
  | null : Proper .null
  | bool (flag : Bool) : Proper (.bool flag)
  | int (number : Int) : Proper (.int number)
  | float (digits : String) : Proper (.float digits)
  | text (characters : String) : Proper (.text characters)
  | array {items : List Value} (each : ∀ item ∈ items, Proper item) : Proper (.array items)
  | object {fields : List (String × Value)} (distinct : (fields.map Prod.fst).Nodup)
      (each : ∀ field ∈ fields, Proper field.2) : Proper (.object fields)

/-- The entry of a dictionary. -/
def Value.get? : Value → String → Option Value
  | .object fields, key => fields.lookup key
  | _, _ => none

@[simp]
theorem Value.get?_object (fields : List (String × Value)) (key : String) :
    (Value.object fields).get? key = fields.lookup key :=
  rfl

/-- The values that count as true. -/
def Value.truthy : Value → Bool
  | .null => false
  | .bool flag => flag
  | .int number => number ≠ 0
  | .float digits => digits ≠ "0.0" && digits ≠ "-0.0"
  | .text characters => characters ≠ ""
  | .array items => !items.isEmpty
  | .object fields => !fields.isEmpty

/-- What iterating over a value yields; numbers, flags and null cannot be iterated. -/
def Value.items : Value → Option (List Value)
  | .array items => some items
  | .object fields => some (fields.map fun field => .text field.1)
  | .text characters => some (characters.toList.map fun character => .text character.toString)
  | _ => none

/-- An optional entry, written as null when it is absent. -/
def Value.ofOption {α : Type} (write : α → Value) (entry : Option α) : Value :=
  (entry.map write).getD .null

/-- The functions of a language that write and read values and turn them into numbers
and texts. What the conversions make of other values than numbers and texts is open. -/
structure Library (Text : Type) where
  dumps : Value → Text
  loads : Text → Option Value
  int : Value → Option Int
  str : Value → String
  loads_dumps : ∀ {value : Value}, value.Proper → loads (dumps value) = some value
  int_int : ∀ number : Int, int (.int number) = some number
  str_text : ∀ characters : String, str (.text characters) = characters

attribute [simp] Library.int_int Library.str_text

variable {Text : Type} (library : Library Text)

/-- `int(raw[key])`. -/
def Library.intAt (raw : Value) (key : String) : Option Int := do library.int (← raw.get? key)

/-- `str(raw[key])`. -/
def Library.strAt (raw : Value) (key : String) : Option String := do
  return library.str (← raw.get? key)

/-- `read(raw[key]) if raw.get(key) is not None else None`. -/
def Value.optionalAt {α : Type} (read : Value → Option α) (raw : Value) (key : String) :
    Option (Option α) :=
  match raw.get? key with
  | none | some .null => some none
  | some entry => (read entry).map some

/-- `str(raw.get(key) or "")`. -/
def Library.textOr (raw : Value) (key : String) : String :=
  match raw.get? key with
  | none => ""
  | some entry => if entry.truthy then library.str entry else ""

/-- A list is read back item by item. -/
theorem mapM_map_of_read {α : Type} {write : α → Value} {read : Value → Option α} {items : List α}
    (each : ∀ item ∈ items, read (write item) = some item) :
    (items.map write).mapM read = some items := by
  induction items with
  | nil => rfl
  | cons item rest ih =>
    rw [List.map_cons, List.mapM_cons, each item List.mem_cons_self,
      ih fun other member => each other (List.mem_cons_of_mem _ member)]
    rfl

end ShortcutProxy.Json
