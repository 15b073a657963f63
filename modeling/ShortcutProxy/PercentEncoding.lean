import Mathlib

/-!
# Percent encoding of bytes

Decoding reads an escape of two hexadecimal digits as one byte and leaves a percent
sign without two digits after it alone. What it makes of the other bytes is a
parameter: a form decoder reads a plus sign as a space, others keep every byte.
Encoding writes every byte as an escape, and decoding takes it back.
-/

namespace ShortcutProxy.PercentEncoding

open List

abbrev Bytes := List UInt8

/-- The bytes of a text of ASCII characters. -/
def bytes (text : String) : Bytes := text.toList.map fun char => .ofNat char.toNat

theorem toNat_byte {value : Nat} (small : value < 256) : (UInt8.ofNat value).toNat = value :=
  UInt8.toNat_ofNat_of_lt' small

/-- A fact of every byte is checked number by number. -/
@[elab_as_elim]
theorem forall_byte {motive : UInt8 → Prop} (byte : UInt8)
    (all : ∀ index : Fin 256, motive (.ofNat index)) : motive byte := by
  have read := all ⟨byte.toNat, byte.toNat_lt⟩
  rwa [UInt8.ofNat_toNat] at read

@[elab_as_elim]
theorem forall_ascii {motive : UInt8 → Prop} (byte : UInt8) (low : byte.toNat < 128)
    (all : ∀ index : Fin 128, motive (.ofNat index)) : motive byte := by
  have read := all ⟨byte.toNat, low⟩
  rwa [UInt8.ofNat_toNat] at read

/-- The percent sign. -/
def percent : UInt8 := 37

/-- The value of a hexadecimal digit. -/
def hexValue (byte : UInt8) : Option UInt8 :=
  if 48 ≤ byte ∧ byte ≤ 57 then some (byte - 48)
  else if 97 ≤ byte ∧ byte ≤ 102 then some (byte - 87)
  else if 65 ≤ byte ∧ byte ≤ 70 then some (byte - 55)
  else none

/-- The hexadecimal digit of a value below sixteen, in upper case. -/
def hexDigit (value : UInt8) : UInt8 := if value < 10 then value + 48 else value + 55

/-- Decoding, with what becomes of a byte that is no part of an escape. -/
def percentDecode (plain : UInt8 → UInt8) : Bytes → Bytes
  | [] => []
  | [byte] => [plain byte]
  | [byte, next] => [plain byte, plain next]
  | byte :: high :: low :: rest =>
    match (if byte = percent then hexValue high else none), hexValue low with
    | some high, some low => (16 * high + low) :: percentDecode plain rest
    | _, _ => plain byte :: percentDecode plain (high :: low :: rest)
termination_by structural text => text

/-- The escape of a byte. -/
def escape (byte : UInt8) : Bytes := [percent, hexDigit (byte / 16), hexDigit (byte % 16)]

/-- Every byte as an escape. -/
def percentEncode (text : Bytes) : Bytes := text.flatMap escape

/-- Every percent sign has two hexadecimal digits after it. -/
def wellEncoded : Bytes → Bool
  | [] => true
  | [byte] => byte ≠ percent
  | [byte, next] => byte ≠ percent && next ≠ percent
  | byte :: high :: low :: rest =>
    if byte = percent then
      (hexValue high).isSome && (hexValue low).isSome && wellEncoded rest
    else wellEncoded (high :: low :: rest)
termination_by structural text => text

variable {plain : UInt8 → UInt8}

variable {byte : UInt8}

/-- A byte that begins no escape is kept. -/
theorem percentDecode_cons_kept {rest : Bytes}
    (kept : ∀ high low tail, rest = high :: low :: tail → byte = percent →
      hexValue high = none ∨ hexValue low = none) :
    percentDecode plain (byte :: rest) = plain byte :: percentDecode plain rest := by
  match rest with
  | [] => rfl
  | [_] => rfl
  | high :: low :: tail =>
    rw [percentDecode]
    by_cases begins : byte = percent
    · rcases kept high low tail rfl begins with none | none
      · simp [none]
      · simp [none]
    · simp [begins]

theorem percentDecode_cons_of_ne (other : byte ≠ percent) (rest : Bytes) :
    percentDecode plain (byte :: rest) = plain byte :: percentDecode plain rest :=
  percentDecode_cons_kept fun _ _ _ _ begins => absurd begins other

theorem wellEncoded_cons_of_ne (other : byte ≠ percent) (rest : Bytes) :
    wellEncoded (byte :: rest) = wellEncoded rest := by
  match rest with
  | [] | [_] | _ :: _ :: _ => simp [wellEncoded, other]

theorem hexValue_hexDigit {value : UInt8} (below : value.toNat < 16) :
    hexValue (hexDigit value) = some value := by
  have digits : ∀ index : Fin 16,
      hexValue (hexDigit (.ofNat index)) = some (.ofNat index) := by decide
  have read := digits ⟨value.toNat, below⟩
  rwa [UInt8.ofNat_toNat] at read

/-- The two digits of an escape hold its byte. -/
theorem hexValue_escape (byte : UInt8) :
    hexValue (hexDigit (byte / 16)) = some (byte / 16) ∧
      hexValue (hexDigit (byte % 16)) = some (byte % 16) ∧
      16 * (byte / 16) + byte % 16 = byte := by
  have bounded : byte.toNat < 256 := byte.toNat_lt
  refine ⟨hexValue_hexDigit ?_, hexValue_hexDigit ?_, UInt8.toNat_inj.mp ?_⟩
  · rw [UInt8.toNat_div]
    change byte.toNat / 16 < 16
    omega
  · rw [UInt8.toNat_mod]
    exact Nat.mod_lt _ (by decide)
  · rw [UInt8.toNat_add, UInt8.toNat_mul, UInt8.toNat_div, UInt8.toNat_mod]
    change (16 * (byte.toNat / 16) % 256 + byte.toNat % 16) % 256 = byte.toNat
    omega

/-- Decoding takes an escape back. -/
theorem percentDecode_escape_append (byte : UInt8) (rest : Bytes) :
    percentDecode plain (escape byte ++ rest) = byte :: percentDecode plain rest := by
  obtain ⟨high, low, whole⟩ := hexValue_escape byte
  simp [escape, percentDecode, high, low, whole]

theorem percentDecode_encode_append (text rest : Bytes) :
    percentDecode plain (percentEncode text ++ rest) = text ++ percentDecode plain rest := by
  induction text with
  | nil => rfl
  | cons byte text ih =>
    rw [percentEncode, flatMap_cons, append_assoc, percentDecode_escape_append]
    exact congrArg (byte :: ·) ih

theorem wellEncoded_encode_append (text rest : Bytes) :
    wellEncoded (percentEncode text ++ rest) = wellEncoded rest := by
  induction text with
  | nil => rfl
  | cons byte text ih =>
    obtain ⟨high, low, -⟩ := hexValue_escape byte
    rw [percentEncode, flatMap_cons, append_assoc]
    refine .trans ?_ ih
    simp [escape, wellEncoded, high, low, percentEncode]

/-- An encoded text has only percent signs and hexadecimal digits. -/
theorem not_mem_percentEncode (other : byte ≠ percent) (noDigit : hexValue byte = none)
    (text : Bytes) : byte ∉ percentEncode text := by
  intro member
  obtain ⟨source, -, escaped⟩ := mem_flatMap.mp member
  obtain ⟨high, low, -⟩ := hexValue_escape source
  simp only [escape, mem_cons, not_mem_nil, or_false] at escaped
  rcases escaped with rfl | rfl | rfl
  · exact other rfl
  · rw [high] at noDigit; cases noDigit
  · rw [low] at noDigit; cases noDigit

/-- A byte that is no part of an escape separates what is decoded before and after. -/
theorem percentDecode_append_cons (other : byte ≠ percent)
    (noDigit : hexValue byte = none) (before after : Bytes) :
    percentDecode plain (before ++ byte :: after) =
      percentDecode plain before ++ plain byte :: percentDecode plain after := by
  induction before using percentDecode.induct with
  | case1 => exact percentDecode_cons_of_ne other after
  | case2 first =>
    have kept : percentDecode plain (first :: byte :: after) =
        plain first :: percentDecode plain (byte :: after) :=
      percentDecode_cons_kept fun _ _ _ split _ => .inl ((List.cons.inj split).1 ▸ noDigit)
    rw [singleton_append, kept, percentDecode_cons_of_ne other]
    rfl
  | case3 first second =>
    have keptFirst : percentDecode plain (first :: second :: byte :: after) =
        plain first :: percentDecode plain (second :: byte :: after) :=
      percentDecode_cons_kept fun _ _ _ split _ =>
        .inr ((List.cons.inj (List.cons.inj split).2).1 ▸ noDigit)
    have keptSecond : percentDecode plain (second :: byte :: after) =
        plain second :: percentDecode plain (byte :: after) :=
      percentDecode_cons_kept fun _ _ _ split _ => .inl ((List.cons.inj split).1 ▸ noDigit)
    rw [cons_append, singleton_append, keptFirst, keptSecond,
      percentDecode_cons_of_ne other]
    rfl
  | case4 first high low rest highValue lowValue readLow readHigh ih =>
    rw [cons_append, cons_append, cons_append, percentDecode, readHigh, readLow,
      percentDecode, readHigh, readLow]
    exact congrArg ((16 * highValue + lowValue) :: ·) ih
  | case5 first high low rest unread ih =>
    have kept : ∀ tail, percentDecode plain (first :: high :: low :: tail) =
        plain first :: percentDecode plain (high :: low :: tail) := by
      intro tail
      refine percentDecode_cons_kept fun _ _ _ split begins => ?_
      obtain ⟨rfl, rfl, -⟩ : high = _ ∧ low = _ ∧ tail = _ := by simpa using split
      cases readHigh : hexValue high with
      | none => exact .inl rfl
      | some value =>
        cases readLow : hexValue low with
        | none => exact .inr rfl
        | some other => exact absurd readLow (fun same => unread value other (by simp [begins, readHigh]) same)
    rw [cons_append, cons_append, cons_append, kept, kept, cons_append]
    exact congrArg (plain first :: ·) ih

/-! ## Texts -/

/-- How bytes are decoded to text: bytes of ASCII stand for themselves wherever they
are, and what lies before and after one is decoded apart. -/
structure Utf8 where
  decode : Bytes → List Char
  nil : decode [] = []
  ascii : ∀ before byte after, byte < 128 →
    decode (before ++ byte :: after) =
      decode before ++ .ofNat byte.toNat :: decode after

namespace Utf8

variable (utf8 : Utf8)

/-- The text of a run of bytes, with its escapes decoded. -/
def flush (run : Bytes) : List Char := utf8.decode (percentDecode id run)

/-- Runs of ASCII characters are decoded as bytes, other characters are kept. The run so
far is the second argument. -/
def unquoteFrom : List Char → Bytes → List Char
  | [], run => utf8.flush run
  | char :: rest, run =>
    if char.toNat < 128 then unquoteFrom rest (run ++ [UInt8.ofNat char.toNat])
    else utf8.flush run ++ char :: unquoteFrom rest []

/-- `unquote`. -/
def unquote (text : List Char) : List Char := utf8.unquoteFrom text []

@[simp] theorem unquote_nil : utf8.unquote [] = [] := utf8.nil

theorem flush_append_slash (before after : Bytes) :
    utf8.flush (before ++ 47 :: after) = utf8.flush before ++ '/' :: utf8.flush after := by
  rw [flush, percentDecode_append_cons (by decide) (by decide)]
  exact utf8.ascii _ 47 _ (by decide)

/-- A slash in the run so far is where the text so far ends. -/
theorem unquoteFrom_append_slash (text : List Char) (before after : Bytes) :
    utf8.unquoteFrom text (before ++ 47 :: after) =
      utf8.flush before ++ '/' :: utf8.unquoteFrom text after := by
  induction text generalizing after with
  | nil => exact utf8.flush_append_slash before after
  | cons char rest ih =>
    unfold unquoteFrom
    split
    · rw [append_assoc, cons_append]
      exact ih _
    · rw [flush_append_slash, append_assoc, cons_append]

/-- What lies between slashes is decoded apart. -/
theorem unquote_append_slash (before after : List Char) :
    utf8.unquote (before ++ '/' :: after) = utf8.unquote before ++ '/' :: utf8.unquote after := by
  have from_run : ∀ run, utf8.unquoteFrom (before ++ '/' :: after) run =
      utf8.unquoteFrom before run ++ '/' :: utf8.unquote after := by
    induction before with
    | nil => exact fun run => utf8.unquoteFrom_append_slash after run []
    | cons char rest ih =>
      intro run
      rw [cons_append, unquoteFrom, unquoteFrom]
      split
      · exact ih _
      · rw [ih, append_assoc, cons_append]
  exact from_run []

/-- Dots are decoded to themselves. -/
theorem unquote_dots : utf8.unquote ['.'] = ['.'] ∧ utf8.unquote ['.', '.'] = ['.', '.'] := by
  have one : ∀ run, utf8.decode (46 :: run) = '.' :: utf8.decode run := by
    intro run
    have read := utf8.ascii [] 46 run (by decide)
    rw [utf8.nil] at read
    exact read
  constructor
  · change utf8.decode [46] = ['.']
    rw [one, utf8.nil]
  · change utf8.decode [46, 46] = ['.', '.']
    rw [one, one, utf8.nil]

end Utf8

end ShortcutProxy.PercentEncoding
