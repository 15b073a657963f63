import ShortcutProxy.NativeAgent
import ShortcutProxy.TextParts

/-!
# Byte ranges

A GET may ask for a part of an object in its `Range` header. The warehouse
(`_make_object_response`), a mount (`get_object` over `_parse_range`) and the native agent
(`handle_get` over `parse_range_header`) read the header with parsers of their own.

A header is a Latin-1 text, so its characters are bytes. What Python's `int` makes of a
text is a parameter.
-/

namespace ShortcutProxy.ByteRanges

open PercentEncoding NativeAgent TextParts

variable {β : Type}

/-- The blanks of `str.strip` among the Latin-1 characters. -/
def isSpace (byte : UInt8) : Bool :=
  (9 ≤ byte && byte ≤ 13) || (28 ≤ byte && byte ≤ 32) || byte = 0x85 || byte = 0xA0

/-- The first range a header asks for, `none` if the header is ignored. -/
def rangeSpec (header : Option Bytes) : Option Bytes :=
  header.bind fun text =>
    if (bytes "bytes=").isPrefixOf text then
      let spec := strip isSpace (text.drop 6)
      some (if 44 ∈ spec then strip isSpace (before 44 spec) else spec)
    else none

variable {first last total : Int} {header : Option Bytes}

section Parsers

variable (int : Bytes → Option Int)

/-- The first and the last byte a range asks for, as both Python parsers read it, `none`
where they ignore it: a count of last bytes, or two ends of which the last is clamped. -/
def readSpec (total : Int) (spec : Bytes) : Option (Int × Int) :=
  if 45 ∉ spec then none
  else if before 45 spec = [] then
    match int (after 45 spec) with
    | none => none
    | some count => if count ≤ 0 then none else some (total - min count total, total - 1)
  else
    match int (before 45 spec), if after 45 spec = [] then some (total - 1) else int (after 45 spec) with
    | some first, some last => some (first, min last (total - 1))
    | _, _ => none

/-- `_apply_range`, `none` for the whole object. -/
def applyRange (header : Option Bytes) (total : Int) : Option (Int × Int) :=
  match (rangeSpec header).bind (readSpec int total) with
  | none => none
  | some (first, last) => if first < 0 ∨ first > last then none else some (first, last)

/-- `_range_is_unsatisfiable`. -/
def rangeIsUnsatisfiable (header : Option Bytes) (total : Int) : Bool :=
  match rangeSpec header with
  | none => false
  | some spec =>
    if 45 ∉ spec ∨ before 45 spec = [] then false
    else (int (before 45 spec)).any (· ≥ total)

/-- `_parse_range`: `none` if the range is unsatisfiable, `some none` for the whole object. -/
def parseRange (header : Option Bytes) (total : Int) : Option (Option (Int × Int)) :=
  match (rangeSpec header).bind (readSpec int total) with
  | none => some none
  | some (first, last) =>
    if first ≥ total then none
    else if first < 0 ∨ first > last then some none
    else some (some (first, last))

/-! ## Answers -/

/-- The status, the bytes of the object that are sent and the `Content-Range`. -/
structure Outcome where
  status : Nat
  interval : Option (Int × Int)
  contentRange : Option String
  deriving DecidableEq

structure Answer (β : Type) extends Outcome where
  body : List β
  contentLength : Int

def Outcome.whole (total : Nat) : Outcome := ⟨200, some (0, total - 1), none⟩

def Outcome.partly (first last : Int) (total : Nat) : Outcome :=
  ⟨206, some (first, last), some s!"bytes {first}-{last}/{total}"⟩

def Outcome.unsatisfiable (total : Nat) : Outcome := ⟨416, none, some s!"bytes */{total}"⟩

def slice (data : List β) (offset length : Int) : List β :=
  (data.drop offset.toNat).take length.toNat

/-- `_make_object_response`. -/
def warehouseGet (data : List β) (header : Option Bytes) : Answer β :=
  if rangeIsUnsatisfiable int header data.length then ⟨.unsatisfiable data.length, [], 0⟩
  else match applyRange int header data.length with
    | none => ⟨.whole data.length, data, data.length⟩
    | some (first, last) =>
      let sliced := slice data first (last + 1 - first)
      ⟨.partly first last data.length, sliced, sliced.length⟩

/-- The answer of `get_object` for an object that is there. -/
def mountGet (data : List β) (header : Option Bytes) : Answer β :=
  match parseRange int header data.length with
  | none => ⟨.unsatisfiable data.length, [], 0⟩
  | some none => ⟨.whole data.length, data, data.length⟩
  | some (some (first, last)) =>
    ⟨.partly first last data.length, slice data first (last - first + 1), last - first + 1⟩

/-- What `handle_get` answers with for an object that is there. -/
def nativeGet (total : Nat) (range : Bytes) : Outcome :=
  match parseRangeHeader range total with
  | .invalid | .unsat => ⟨416, none, none⟩
  | .whole => .whole total
  | .partly first last => .partly first last total

/-- An answer that gives the whole object, a part of it within its bounds, or none. -/
inductive WellFormed (data : List β) (answer : Answer β) : Prop where
  | unsatisfiable (status : answer.status = 416)
  | whole (status : answer.status = 200) (body : answer.body = data)
      (contentLength : answer.contentLength = data.length) (contentRange : answer.contentRange = none)
  | partly (first last : Int) (status : answer.status = 206) (start : 0 ≤ first)
      (ordered : first ≤ last) (bounded : last < data.length)
      (body : answer.body = slice data first (last - first + 1))
      (contentLength : answer.contentLength = last - first + 1)
      (exact : answer.body.length = last - first + 1)
      (contentRange : answer.contentRange = some s!"bytes {first}-{last}/{data.length}")

theorem length_slice {data : List β} (start : 0 ≤ first) (ordered : first ≤ last)
    (bounded : last < data.length) :
    ((slice data first (last - first + 1)).length : Int) = last - first + 1 := by
  rw [slice, List.length_take, List.length_drop]
  omega

theorem applyRange_bounds (part : applyRange int header total = some (first, last)) :
    0 ≤ first ∧ first ≤ last ∧ last < total := by
  unfold applyRange at part
  split at part
  · cases part
  · next first last read =>
      obtain ⟨spec, -, read⟩ := Option.bind_eq_some_iff.mp read
      unfold readSpec at read
      grind

theorem parseRange_bounds (part : parseRange int header total = some (some (first, last))) :
    0 ≤ first ∧ first ≤ last ∧ last < total := by
  have taken : applyRange int header total = some (first, last) := by
    unfold parseRange at part
    unfold applyRange
    grind
  exact applyRange_bounds int taken

/-- Whatever the header and the object, the empty one included, a warehouse and a mount
answer with 416, with a part within the object, or with all of it. -/
theorem gets_wellFormed (data : List β) (header : Option Bytes) :
    WellFormed data (warehouseGet int data header) ∧ WellFormed data (mountGet int data header) := by
  constructor
  · unfold warehouseGet
    split
    · exact .unsatisfiable rfl
    · split
      · exact .whole rfl rfl rfl rfl
      · next first last part =>
          obtain ⟨start, ordered, bounded⟩ := applyRange_bounds int part
          have exact := length_slice start ordered bounded
          have same : last + 1 - first = last - first + 1 := by omega
          rw [same]
          exact .partly first last rfl start ordered bounded rfl exact exact rfl
  · unfold mountGet
    split
    · exact .unsatisfiable rfl
    · exact .whole rfl rfl rfl rfl
    · next first last part =>
        obtain ⟨start, ordered, bounded⟩ := parseRange_bounds int part
        have exact := length_slice start ordered bounded
        exact .partly first last rfl start ordered bounded rfl rfl exact rfl

end Parsers

/-! ## Three parsers -/

/-- The digits of a number that may have a sign. -/
def digitCount (number : Bytes) : Nat :=
  (if number.head? = some 45 ∨ number.head? = some 43 then number.drop 1 else number).length

/-- Python's `int`: a number that the native agent reads is read alike, unless it has more
digits than the interpreter converts. -/
structure Integers where
  int : Bytes → Option Int
  maxStrDigits : Nat
  int_of_parseI64 : ∀ text value, parseI64 text = some value →
    int text = if digitCount text ≤ maxStrDigits then some value else none

/-- The numbers of a range have no more digits than Python's `int` converts. -/
def Integers.Converts (python : Integers) (spec : Bytes) : Prop :=
  digitCount (before 45 spec) ≤ python.maxStrDigits ∧ digitCount (after 45 spec) ≤ python.maxStrDigits

theorem isSpace_of_parseI64 {text : Bytes} {value : Int} (read : parseI64 text = some value) :
    ∀ byte ∈ text, isSpace byte = false := by
  have digit : ∀ byte : UInt8, (48 ≤ byte && byte ≤ 57) = true → isSpace byte = false := by
    intro byte
    simp only [isSpace, UInt8.le_iff_toNat_le, ← UInt8.toNat_inj]
    grind
  have sign : isSpace 45 = false ∧ isSpace 43 = false := by decide
  cases text with
  | nil => simp
  | cons head rest =>
      unfold parseI64 at read
      grind

/-- What the native agent takes for a part is a range both Python parsers can read. -/
theorem readSpec_of_partly {range : Bytes}
    (part : parseRangeHeader range total = .partly first last) :
    (bytes "bytes=").isPrefixOf range = true ∧
      readSpec parseI64 total (before 44 (range.drop 6)) = some (first, last) ∧
      0 ≤ first ∧ (0 < total → first ≤ last ∧ first < total) := by
  simp only [parseRangeHeader, List.contains_eq_mem, ← before.eq_1, ← after.eq_1] at part
  unfold readSpec
  generalize before 44 (range.drop 6) = spec at part ⊢
  generalize before 45 spec = start, after 45 spec = stop at part ⊢
  have clamped : ∀ count, min count total ≤ total ∧ (0 < count → 0 < total → 0 < min count total) :=
    fun count => ⟨Int.min_le_right .., by omega⟩
  split at part
  · cases part
  · split at part
    · cases part
    · split at part
      · cases part
      · split at part
        · grind
        · next twoEnds =>
            generalize (if stop = [] then some (total - 1) else parseI64 stop) = ended at part ⊢
            cases started : parseI64 start with
            | none => simp [started] at part
            | some from_ =>
                simp only [started, if_neg twoEnds] at part ⊢
                grind

theorem rangeSpec_some {text : Bytes} (start : (bytes "bytes=").isPrefixOf text = true) :
    rangeSpec (some text) = some (strip isSpace (before 44 (text.drop 6))) := by
  have kept : isSpace 44 = false := by decide
  simp only [rangeSpec, Option.bind_some, if_pos start, mem_strip_iff kept]
  split
  · next present => rw [(strip_cut_strip kept present).1]
  · next free => rw [before_of_free free]

theorem mem_cut {byte separator : UInt8} {text : Bytes} (member : byte ∈ text) :
    byte ∈ before separator text ∨ byte = separator ∨ byte ∈ after separator text := by
  induction text with
  | nil => cases member
  | cons head rest ih =>
      by_cases same : head = separator
      · rcases List.mem_cons.mp member with rfl | member
        · exact .inr (.inl same)
        · simp [after, same, member]
      · simp only [before, after, List.takeWhile_cons, List.dropWhile_cons] at ih ⊢
        grind

theorem isSpace_of_readSpec {spec : Bytes} {ends : Int × Int}
    (read : readSpec parseI64 total spec = some ends) : ∀ byte ∈ spec, isSpace byte = false := by
  intro byte member
  have parts : byte ∈ before 45 spec ∨ byte = 45 ∨ byte ∈ after 45 spec := mem_cut member
  have dash : isSpace 45 = false := by decide
  have number := @isSpace_of_parseI64
  unfold readSpec at read
  grind

theorem Integers.readSpec_eq (python : Integers) {spec : Bytes} {ends : Int × Int}
    (read : readSpec parseI64 total spec = some ends) [Decidable (python.Converts spec)] :
    readSpec python.int total spec = if python.Converts spec then some ends else none := by
  have law := python.int_of_parseI64
  have empty : digitCount [] ≤ python.maxStrDigits := Nat.zero_le _
  unfold readSpec at read ⊢
  simp only [Integers.Converts]
  grind

/-- A header with a range that the native agent serves, as the Python parsers read it. -/
theorem Integers.read_of_partly (python : Integers) {range : Bytes}
    (part : parseRangeHeader range total = .partly first last)
    [Decidable (python.Converts (before 44 (range.drop 6)))] :
    (rangeSpec (some range)).bind (readSpec python.int total) =
      if python.Converts (before 44 (range.drop 6)) then some (first, last) else none := by
  obtain ⟨framed, read, -, -⟩ := readSpec_of_partly part
  have kept := isSpace_of_readSpec read
  have clean : strip isSpace (before 44 (range.drop 6)) = before 44 (range.drop 6) := by
    rw [strip, List.dropWhile_eq_self_iff.mpr fun _ => by simp [kept],
      List.rdropWhile_eq_self_iff.mpr fun _ => by simp [kept]]
  rw [rangeSpec_some framed, clean, Option.bind_some, python.readSpec_eq read]

/-- A mount's answer without a `Content-Range` is the whole object. -/
theorem status_mountGet (int : Bytes → Option Int) (data : List β) (header : Option Bytes)
    (free : (mountGet int data header).contentRange = none) :
    (mountGet int data header).status = 200 := by
  unfold mountGet at free ⊢
  split at free
  · cases free
  · rfl
  · cases free

/-- The warehouse, a mount and the native agent agree on status, bytes and `Content-Range`
exactly where no range is asked for, and on ranges within an object with a byte that the
native agent serves. -/
theorem gets_agree_iff (python : Integers) (data : List β) (header : Option Bytes) :
    ((warehouseGet python.int data header).toOutcome = (mountGet python.int data header).toOutcome ∧
      (mountGet python.int data header).toOutcome = nativeGet data.length (header.getD [])) ↔
    header.getD [] = [] ∨
      (data ≠ [] ∧ python.Converts (before 44 ((header.getD []).drop 6)) ∧
        ∃ first last, parseRangeHeader (header.getD []) data.length = .partly first last) := by
  classical
  by_cases absent : header.getD [] = []
  · have ignored : rangeSpec header = none := by
      cases header with
      | none => rfl
      | some text => rw [show text = [] from absent]; rfl
    simp [absent, warehouseGet, mountGet, nativeGet, parseRangeHeader, rangeIsUnsatisfiable,
      applyRange, parseRange, ignored]
  obtain ⟨range, rfl⟩ : ∃ range, header = some range := by
    cases header with
    | none => exact absurd rfl absent
    | some text => exact ⟨text, rfl⟩
  rw [or_iff_right absent, Option.getD_some, nativeGet]
  rw [Option.getD_some] at absent
  cases parsed : parseRangeHeader range data.length with
  | whole =>
      rw [parseRangeHeader, if_neg absent] at parsed
      dsimp only at parsed
      (repeat' split at parsed) <;> cases parsed
  | invalid | unsat =>
      have ranged := status_mountGet python.int data (some range)
      grind
  | partly first last =>
      have read := python.read_of_partly parsed
      obtain ⟨-, -, start, inside⟩ := readSpec_of_partly parsed
      constructor
      · rintro ⟨-, same⟩
        have part : parseRange python.int (some range) data.length = some (some (first, last)) := by
          unfold mountGet at same
          grind [Outcome.partly, Outcome.whole, Outcome.unsatisfiable]
        have bounds := parseRange_bounds python.int part
        unfold parseRange at part
        have nonempty : data ≠ [] := by
          rintro rfl
          simp at bounds
          omega
        grind
      · rintro ⟨nonempty, converts, -⟩
        have size := List.length_pos_iff.mpr nonempty
        obtain ⟨ordered, bounded⟩ := inside (by omega)
        rw [if_pos converts] at read
        have satisfiable : rangeIsUnsatisfiable python.int (some range) data.length = false := by
          refine Bool.eq_false_iff.mpr fun unsatisfiable => ?_
          obtain ⟨spec, named, read⟩ := Option.bind_eq_some_iff.mp read
          simp only [rangeIsUnsatisfiable, named] at unsatisfiable
          unfold readSpec at read
          grind
        have forward : ¬ (first < 0 ∨ first > last) := by omega
        have within : ¬ first ≥ data.length := by omega
        simp [warehouseGet, mountGet, applyRange, parseRange, satisfiable, read, forward, within]

/-- An `int` that reads what the native agent reads. -/
def plainIntegers : Integers where
  int text := if digitCount text ≤ 4300 then parseI64 text else none
  maxStrDigits := 4300
  int_of_parseI64 text value read := by rw [read]

/-- Asked for the last bytes of an empty object, a warehouse sends the object, a mount
rejects the range, and the native agent serves a part with an impossible end. -/
theorem gets_differ_on_empty_object :
    (warehouseGet plainIntegers.int ([] : Bytes) (some (bytes "bytes=-5"))).status = 200 ∧
      (mountGet plainIntegers.int ([] : Bytes) (some (bytes "bytes=-5"))).status = 416 ∧
      nativeGet 0 (bytes "bytes=-5") = ⟨206, some (0, -1), some "bytes 0--1/0"⟩ := by
  decide

end ShortcutProxy.ByteRanges
