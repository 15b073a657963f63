import ShortcutProxy.PercentEncoding

/-!
# UTF-8 with replacement

A lead byte announces how many bytes a character takes and bounds the second of them;
the others lie between `80` and `BF`. Decoding with replacement takes a whole character
where one stands, and otherwise puts the replacement character for the longest start of
one. Both are one pass over the bytes that counts down the bytes already taken.

Encoding takes decoding back on whole characters, and bytes that no lead byte can reach
over are decoded apart.
-/

namespace ShortcutProxy.Utf8Codec

open PercentEncoding List UInt8

abbrev Text := List Char

/-- The replacement character. -/
def replacement : Char := .ofNat 0xFFFD

/-- How many bytes the character of a lead byte takes, or zero. -/
def size (lead : UInt8) : Nat :=
  if 0xC2 ≤ lead.toNat ∧ lead.toNat ≤ 0xDF then 2
  else if 0xE0 ≤ lead.toNat ∧ lead.toNat ≤ 0xEF then 3
  else if 0xF0 ≤ lead.toNat ∧ lead.toNat ≤ 0xF4 then 4
  else 0

/-- The least second byte after a lead byte. -/
def leastSecond (lead : UInt8) : Nat :=
  if lead.toNat = 0xE0 then 0xA0 else if lead.toNat = 0xF0 then 0x90 else 0x80

/-- The greatest second byte after a lead byte. -/
def greatestSecond (lead : UInt8) : Nat :=
  if lead.toNat = 0xED then 0x9F else if lead.toNat = 0xF4 then 0x8F else 0xBF

/-- Bytes that stand only inside a character. -/
def isTail (byte : UInt8) : Prop := 0x80 ≤ byte.toNat ∧ byte.toNat ≤ 0xBF

/-- The byte goes on with the character of a lead byte, at a place after it. -/
def goesOn (lead : UInt8) (place : Nat) (byte : UInt8) : Prop :=
  isTail byte ∧ (place = 1 → leastSecond lead ≤ byte.toNat ∧ byte.toNat ≤ greatestSecond lead)

instance (lead : UInt8) (place : Nat) (byte : UInt8) : Decidable (goesOn lead place byte) := by
  unfold goesOn isTail
  infer_instance

/-- How many of the bytes still owed go on with the character. -/
def taken (lead : UInt8) : Nat → Nat → Bytes → Nat
  | 0, _, _ => 0
  | _ + 1, _, [] => 0
  | owed + 1, place, byte :: rest =>
    if goesOn lead place byte then taken lead owed (place + 1) rest + 1 else 0

/-- The character of a lead byte and the bytes after it. -/
def assemble (lead : UInt8) : Bytes → Char
  | [second] => .ofNat ((lead.toNat - 0xC0) * 64 + (second.toNat - 0x80))
  | [second, third] =>
    .ofNat ((lead.toNat - 0xE0) * 4096 + (second.toNat - 0x80) * 64 + (third.toNat - 0x80))
  | [second, third, fourth] =>
    .ofNat ((lead.toNat - 0xF0) * 262144 + (second.toNat - 0x80) * 4096 +
      (third.toNat - 0x80) * 64 + (fourth.toNat - 0x80))
  | _ => replacement

/-- What decoding puts for a lead byte and the bytes after it that it takes. -/
def decodedChar (lead : UInt8) (tail : Bytes) : Char :=
  if tail.length + 1 = size lead then assemble lead tail else replacement

/-- Decoding, with the number of bytes that belong to the character before. -/
def decodeFrom : Nat → Bytes → Text
  | _, [] => []
  | skip + 1, _ :: rest => decodeFrom skip rest
  | 0, byte :: rest =>
    if byte.toNat < 0x80 then .ofNat byte.toNat :: decodeFrom 0 rest
    else
      let count := taken byte (size byte - 1) 1 rest
      decodedChar byte (rest.take count) :: decodeFrom count rest

/-- `bytes.decode("utf-8", "replace")`. -/
def decode (bytes : Bytes) : Text := decodeFrom 0 bytes

/-- `str.encode("utf-8")`. -/
def encode (text : Text) : Bytes := text.flatMap String.utf8EncodeChar

@[simp] theorem encode_nil : encode [] = [] := rfl

@[simp] theorem encode_cons (char : Char) (text : Text) :
    encode (char :: text) = String.utf8EncodeChar char ++ encode text := rfl

@[simp] theorem encode_append (text rest : Text) :
    encode (text ++ rest) = encode text ++ encode rest := flatMap_append

/-! ## One character -/

theorem taken_le (lead : UInt8) (owed place : Nat) (bytes : Bytes) :
    taken lead owed place bytes ≤ owed ∧ taken lead owed place bytes ≤ bytes.length := by
  induction owed generalizing place bytes with
  | zero => simp [taken]
  | succ owed ih =>
    cases bytes with
    | nil => simp [taken]
    | cons byte rest =>
      have bounds := ih (place + 1) rest
      rw [taken]
      split
      · simp only [length_cons]
        omega
      · omega

variable {lead : UInt8} {bytes tail : Bytes}

variable {rest : Bytes}

/-- Bytes after those that begin a character are not reached when they cannot go on. -/
theorem taken_append {owed place : Nat}
    (apart : ∀ byte ∈ rest.head?, ¬ isTail byte) :
    taken lead owed place (bytes ++ rest) = taken lead owed place bytes := by
  induction owed generalizing place bytes with
  | zero => rfl
  | succ owed ih =>
    cases bytes with
    | nil =>
      cases rest with
      | nil => rfl
      | cons byte rest =>
        have stops : ¬ goesOn lead place byte := fun continued => apart byte rfl continued.1
        simp [taken, stops]
    | cons byte bytes =>
      rw [cons_append, taken, taken, ih]

/-- What lies before a byte that stands in no character is decoded apart. -/
theorem decodeFrom_append (apart : ∀ byte ∈ rest.head?, ¬ isTail byte) {skip : Nat}
    (within : skip ≤ bytes.length) :
    decodeFrom skip (bytes ++ rest) = decodeFrom skip bytes ++ decode rest := by
  induction bytes generalizing skip with
  | nil =>
    obtain rfl : skip = 0 := by simpa using within
    rfl
  | cons byte bytes ih =>
    cases skip with
    | succ skip =>
      rw [length_cons] at within
      exact ih (by omega)
    | zero =>
      rw [cons_append, decodeFrom, decodeFrom]
      split
      · rw [ih (Nat.zero_le _)]
        rfl
      · have bounds := taken_le byte (size byte - 1) 1 bytes
        simp only [taken_append apart]
        rw [ih bounds.2, take_append_of_le_length bounds.2]
        rfl

theorem decode_append (apart : ∀ byte ∈ rest.head?, ¬ isTail byte) :
    decode (bytes ++ rest) = decode bytes ++ decode rest :=
  decodeFrom_append apart (Nat.zero_le _)

/-- The bytes of a whole character after its lead byte. -/
def Whole (lead : UInt8) (tail : Bytes) : Prop :=
  0x80 ≤ lead.toNat ∧ tail.length + 1 = size lead ∧
    taken lead tail.length 1 tail = tail.length

/-- All bytes that are owed are there. -/
theorem taken_append_of_all {place : Nat} (rest : Bytes)
    (all : taken lead tail.length place tail = tail.length) :
    taken lead tail.length place (tail ++ rest) = tail.length := by
  induction tail generalizing place with
  | nil => rfl
  | cons byte tail ih =>
    simp only [length_cons, cons_append, taken] at all ⊢
    split at all
    · next continued =>
      rw [if_pos continued, ih (by omega)]
    · omega

theorem taken_take_of_all {owed place : Nat} (all : taken lead owed place bytes = owed) :
    taken lead owed place (bytes.take owed) = owed := by
  induction owed generalizing place bytes with
  | zero => rfl
  | succ owed ih =>
    cases bytes with
    | nil => exact all
    | cons byte rest =>
      rw [taken] at all
      split at all
      · next continued =>
        rw [take_succ_cons, taken, if_pos continued, ih (by omega)]
      · omega

theorem decodeFrom_length_append (tail rest : Bytes) :
    decodeFrom tail.length (tail ++ rest) = decode rest := by
  induction tail with
  | nil => rfl
  | cons byte tail ih => exact ih

/-- A whole character is decoded to itself. -/
theorem decode_whole (whole : Whole lead tail) (rest : Bytes) :
    decode (lead :: tail ++ rest) = assemble lead tail :: decode rest := by
  obtain ⟨high, length, all⟩ := whole
  have owed : size lead - 1 = tail.length := by omega
  rw [decode, cons_append, decodeFrom, if_neg (by omega)]
  simp only [owed, taken_append_of_all rest all, take_left, decodedChar, length, if_pos,
    decodeFrom_length_append]

theorem toNat_ofNat (value : Nat) (valid : value.isValidChar) :
    (Char.ofNat value).val.toNat = value := by
  simp [Char.ofNat, valid, Char.ofNatAux]

theorem char_bounds (char : Char) :
    char.toNat < 0xD800 ∨ 0xDFFF < char.toNat ∧ char.toNat < 0x110000 := char.valid

variable {second : UInt8}

theorem whole_two (bounds : 0xC2 ≤ lead.toNat ∧ lead.toNat ≤ 0xDF)
    (inside : isTail second) : Whole lead [second] := by
  have continued : goesOn lead 1 second := by
    refine ⟨inside, fun _ => ?_⟩
    obtain ⟨least, greatest⟩ := inside
    simp only [leastSecond, greatestSecond]
    split_ifs <;> omega
  refine ⟨by omega, ?_, by simp [taken, continued]⟩
  simp [size, bounds]

theorem whole_three {third : UInt8} (bounds : 0xE0 ≤ lead.toNat ∧ lead.toNat ≤ 0xEF)
    (first : goesOn lead 1 second) (inside : isTail third) : Whole lead [second, third] := by
  have continued : goesOn lead 2 third := ⟨inside, by simp⟩
  refine ⟨by omega, ?_, by simp [taken, first, continued]⟩
  rw [size, if_neg (by omega), if_pos bounds]
  rfl

theorem whole_four {third fourth : UInt8} (bounds : 0xF0 ≤ lead.toNat ∧ lead.toNat ≤ 0xF4)
    (first : goesOn lead 1 second) (inside : isTail third) (last : isTail fourth) :
    Whole lead [second, third, fourth] := by
  have continued : goesOn lead 2 third := ⟨inside, by simp⟩
  have ended : goesOn lead 3 fourth := ⟨last, by simp⟩
  refine ⟨by omega, ?_, by simp [taken, first, continued, ended]⟩
  rw [size, if_neg (by omega), if_neg (by omega), if_pos bounds]
  rfl

/-- The bytes of a character whose number is not of ASCII are whole, and are assembled to
that character. -/
theorem encodeChar_whole {char : Char} (high : 0x80 ≤ char.toNat) :
    ∃ lead tail, String.utf8EncodeChar char = lead :: tail ∧ Whole lead tail ∧
      assemble lead tail = char := by
  have bounds := char_bounds char
  have same : ∀ value, value = char.toNat → .ofNat value = char :=
    fun value equal => equal ▸ Char.ofNat_toNat char
  unfold String.utf8EncodeChar
  change ∃ lead tail, (if char.toNat ≤ 127 then [ofNat char.toNat]
    else if char.toNat ≤ 2047 then
      [ofNat (char.toNat / 64 % 32 + 192), .ofNat (char.toNat % 64 + 128)]
    else if char.toNat ≤ 65535 then
      [ofNat (char.toNat / 4096 % 16 + 224), ofNat (char.toNat / 64 % 64 + 128),
        ofNat (char.toNat % 64 + 128)]
    else
      [ofNat (char.toNat / 262144 % 8 + 240), ofNat (char.toNat / 4096 % 64 + 128),
        ofNat (char.toNat / 64 % 64 + 128), ofNat (char.toNat % 64 + 128)]) =
      lead :: tail ∧ _
  generalize char.toNat = value at *
  have last : isTail (ofNat (value % 64 + 128)) := by
    rw [isTail, toNat_byte (by omega)]
    omega
  have third : isTail (ofNat (value / 64 % 64 + 128)) := by
    rw [isTail, toNat_byte (by omega)]
    omega
  have second : isTail (ofNat (value / 4096 % 64 + 128)) := by
    rw [isTail, toNat_byte (by omega)]
    omega
  rw [if_neg (by omega)]
  split
  · refine ⟨_, _, rfl, whole_two ?_ last, same _ ?_⟩
    · rw [toNat_byte (by omega)]
      omega
    · rw [toNat_byte (by omega), toNat_byte (by omega)]
      omega
  split
  · refine ⟨_, _, rfl, whole_three ?_ ⟨third, fun _ => ?_⟩ last, same _ ?_⟩
    · rw [toNat_byte (by omega)]
      omega
    · rw [leastSecond, greatestSecond, toNat_byte (by omega), toNat_byte (by omega)]
      split_ifs <;> omega
    · rw [toNat_byte (by omega), toNat_byte (by omega), toNat_byte (by omega)]
      omega
  · refine ⟨_, _, rfl, whole_four ?_ ⟨second, fun _ => ?_⟩ third last, same _ ?_⟩
    · rw [toNat_byte (by omega)]
      omega
    · rw [leastSecond, greatestSecond, toNat_byte (by omega), toNat_byte (by omega)]
      split_ifs <;> omega
    · rw [toNat_byte (by omega), toNat_byte (by omega), toNat_byte (by omega),
        toNat_byte (by omega)]
      omega

theorem encodeChar_ascii {char : Char} (low : char.toNat < 0x80) :
    String.utf8EncodeChar char = [ofNat char.toNat] := by
  unfold String.utf8EncodeChar
  exact if_pos (Nat.le_of_lt_succ low)

variable {byte : UInt8}

theorem decode_ascii (low : byte.toNat < 0x80) (rest : Bytes) :
    decode (byte :: rest) = .ofNat byte.toNat :: decode rest := by
  rw [decode, decodeFrom, if_pos low]
  rfl

/-- Decoding takes the bytes of a character back. -/
theorem decode_encodeChar_append (char : Char) (rest : Bytes) :
    decode (String.utf8EncodeChar char ++ rest) = char :: decode rest := by
  by_cases low : char.toNat < 0x80
  · rw [encodeChar_ascii low, singleton_append, decode_ascii, toNat_byte (by omega),
      Char.ofNat_toNat]
    rwa [toNat_byte (by omega)]
  · obtain ⟨lead, tail, bytes, whole, char_eq⟩ := encodeChar_whole (Nat.le_of_not_lt low)
    rw [bytes, decode_whole whole, char_eq]

theorem decode_encode (text : Text) : decode (encode text) = text := by
  induction text with
  | nil => rfl
  | cons char text ih =>
    rw [encode_cons, decode_encodeChar_append, ih]

/-- The bytes of a whole character, by how many there are. -/
theorem Whole.cases (whole : Whole lead tail) :
    (∃ second, tail = [second] ∧ (0xC2 ≤ lead.toNat ∧ lead.toNat ≤ 0xDF) ∧ isTail second) ∨
    (∃ second third, tail = [second, third] ∧ (0xE0 ≤ lead.toNat ∧ lead.toNat ≤ 0xEF) ∧
      goesOn lead 1 second ∧ isTail third) ∨
    ∃ second third fourth, tail = [second, third, fourth] ∧
      (0xF0 ≤ lead.toNat ∧ lead.toNat ≤ 0xF4) ∧ goesOn lead 1 second ∧ isTail third ∧
      isTail fourth := by
  obtain ⟨-, length, all⟩ := whole
  have goes : ∀ {owed place byte rest}, taken lead (owed + 1) place (byte :: rest) = owed + 1 →
      goesOn lead place byte ∧ taken lead owed (place + 1) rest = owed := by
    intro owed place byte rest complete
    rw [taken] at complete
    split at complete
    · next continued => exact ⟨continued, by omega⟩
    · omega
  unfold size at length
  split_ifs at length with two three four
  · obtain ⟨second, rfl⟩ := length_eq_one_iff.mp (Nat.succ.inj length)
    exact .inl ⟨second, rfl, two, (goes all).1.1⟩
  · obtain ⟨second, third, rfl⟩ := length_eq_two.mp (Nat.succ.inj length)
    exact .inr (.inl ⟨second, third, rfl, three, (goes all).1, (goes (goes all).2).1.1⟩)
  · obtain ⟨second, third, fourth, rfl⟩ := length_eq_three.mp (Nat.succ.inj length)
    exact .inr (.inr ⟨second, third, fourth, rfl, four, (goes all).1, (goes (goes all).2).1.1,
      (goes (goes (goes all).2).2).1.1⟩)

theorem byte_ofNat {value : Nat} (byte : UInt8) (number : value = byte.toNat) :
    .ofNat value = byte := by
  rw [number, UInt8.ofNat_toNat]

/-- A whole character has the bytes it was assembled from. -/
theorem encodeChar_assemble (whole : Whole lead tail) :
    String.utf8EncodeChar (assemble lead tail) = lead :: tail := by
  unfold String.utf8EncodeChar
  rcases whole.cases with ⟨second, rfl, bounds, inside⟩ |
    ⟨second, third, rfl, bounds, ⟨inside, range⟩, last⟩ |
    ⟨second, third, fourth, rfl, bounds, ⟨inside, range⟩, middle, last⟩
  · obtain ⟨least, greatest⟩ := inside
    have number := toNat_ofNat ((lead.toNat - 0xC0) * 64 + (second.toNat - 0x80))
      (.inl (by omega))
    simp only [assemble, number]
    rw [if_neg (by omega), if_pos (by omega), byte_ofNat lead (by omega),
      byte_ofNat second (by omega)]
  · obtain ⟨least, greatest⟩ := range rfl
    obtain ⟨secondLeast, secondGreatest⟩ := inside
    obtain ⟨lastLeast, lastGreatest⟩ := last
    have number := toNat_ofNat ((lead.toNat - 0xE0) * 4096 + (second.toNat - 0x80) * 64 +
      (third.toNat - 0x80)) (by
        unfold leastSecond at least
        unfold greatestSecond at greatest
        unfold Nat.isValidChar
        split_ifs at least greatest <;> omega)
    simp only [assemble, number]
    unfold leastSecond at least
    rw [if_neg (by split_ifs at least <;> omega), if_neg (by split_ifs at least <;> omega),
      if_pos (by omega), byte_ofNat lead (by omega), byte_ofNat second (by omega),
      byte_ofNat third (by omega)]
  · obtain ⟨least, greatest⟩ := range rfl
    obtain ⟨secondLeast, secondGreatest⟩ := inside
    obtain ⟨thirdLeast, thirdGreatest⟩ := middle
    obtain ⟨lastLeast, lastGreatest⟩ := last
    unfold leastSecond at least
    unfold greatestSecond at greatest
    have number := toNat_ofNat ((lead.toNat - 0xF0) * 262144 + (second.toNat - 0x80) * 4096 +
      (third.toNat - 0x80) * 64 + (fourth.toNat - 0x80)) (by
        unfold Nat.isValidChar
        split_ifs at least greatest <;> omega)
    simp only [assemble, number]
    rw [if_neg (by split_ifs at least <;> omega), if_neg (by split_ifs at least <;> omega),
      if_neg (by split_ifs at least <;> omega), byte_ofNat lead (by omega),
      byte_ofNat second (by omega), byte_ofNat third (by omega), byte_ofNat fourth (by omega)]

/-! ## Percent decoding of texts -/

theorem not_isTail_of_ascii (low : byte.toNat < 0x80) : ¬ isTail byte :=
  fun inside => absurd inside.1 (by omega)

/-- Decoding with replacement, as the codec of `unquote`. -/
def codec : PercentEncoding.Utf8 where
  decode := decode
  nil := rfl
  ascii before byte after low := by
    have small : byte.toNat < 0x80 := UInt8.lt_iff_toNat_lt.mp low
    rw [decode_append, decode_ascii small]
    intro head first
    obtain rfl : byte = head := by simpa using first
    exact not_isTail_of_ascii small

/-- A byte that is not of ASCII is no part of an escape. -/
theorem no_escape_of_high (high : 0x80 ≤ byte.toNat) :
    byte ≠ percent ∧ hexValue byte = none := by
  constructor
  · rintro rfl
    exact absurd high (by decide)
  · have above : ∀ limit : UInt8, limit.toNat < 0x80 → ¬ byte ≤ limit :=
      fun limit small bound => absurd (le_iff_toNat_le.mp bound) (by omega)
    simp [hexValue, above 57 (by decide), above 102 (by decide), above 70 (by decide)]

variable {text : Bytes}

theorem percentDecode_high_append (high : ∀ byte ∈ text, 0x80 ≤ byte.toNat)
    (rest : Bytes) : percentDecode id (text ++ rest) = text ++ percentDecode id rest := by
  induction text with
  | nil => rfl
  | cons byte text ih =>
    rw [cons_append, percentDecode_cons_of_ne (no_escape_of_high (high byte (by simp))).1,
      ih fun other member => high other (by simp [member])]
    rfl

theorem Whole.high (whole : Whole lead tail) : ∀ byte ∈ lead :: tail, 0x80 ≤ byte.toNat := by
  rcases whole.cases with ⟨second, rfl, bounds, inside⟩ |
    ⟨second, third, rfl, bounds, ⟨inside, -⟩, last⟩ |
    ⟨second, third, fourth, rfl, bounds, ⟨inside, -⟩, middle, last⟩
  all_goals
    intro byte member
    simp only [mem_cons, not_mem_nil, or_false] at member
  · rcases member with rfl | rfl
    · omega
    · exact inside.1
  · rcases member with rfl | rfl | rfl
    · omega
    · exact inside.1
    · exact last.1
  · rcases member with rfl | rfl | rfl | rfl
    · omega
    · exact inside.1
    · exact middle.1
    · exact last.1

theorem Whole.lead_not_isTail (whole : Whole lead tail) : ¬ isTail lead := by
  intro inside
  have greatest := inside.2
  rcases whole.cases with ⟨_, _, bounds, _⟩ | ⟨_, _, _, bounds, _⟩ | ⟨_, _, _, _, bounds, _⟩
  all_goals omega

/-- Reading the escapes of a text is reading those of its bytes: a character that is not
of ASCII ends the run of bytes before it. -/
theorem encode_unquoteFrom (text : Text) (run : Bytes) :
    encode (codec.unquoteFrom text run) =
      encode (decode (percentDecode id (run ++ encode text))) := by
  induction text generalizing run with
  | nil => rw [encode_nil, append_nil]; rfl
  | cons char text ih =>
    rw [Utf8.unquoteFrom]
    split
    · next low =>
      rw [ih, encode_cons, encodeChar_ascii low, append_assoc]
    · next high =>
      obtain ⟨lead, tail, encoded, whole, -⟩ := encodeChar_whole (Nat.le_of_not_lt high)
      have leadHigh := no_escape_of_high (whole.high lead (by simp))
      have apart : ∀ byte ∈ (lead :: tail ++ percentDecode id (encode text)).head?,
          ¬ isTail byte := by
        intro byte first
        obtain rfl : lead = byte := by simpa using first
        exact whole.lead_not_isTail
      have read : percentDecode id (run ++ encode (char :: text)) =
          percentDecode id run ++ (lead :: tail ++ percentDecode id (encode text)) := by
        rw [encode_cons, encoded, cons_append,
          percentDecode_append_cons leadHigh.1 leadHigh.2, percentDecode_high_append
            fun byte member => whole.high byte (by simp [member])]
        rfl
      rw [read, decode_append apart, encode_append, encode_append]
      congr 1
      rw [← encoded, decode_encodeChar_append, encode_cons, encode_cons,
        ih, nil_append]

theorem encode_unquote (text : Text) :
    encode (codec.unquote text) = encode (decode (percentDecode id (encode text))) :=
  encode_unquoteFrom text []

/-! ## Letters of ASCII among others -/

/-- A byte of ASCII in an encoded text stands for its letter. -/
theorem byte_mem_encodeChar_iff {letter : Char} (low : letter.toNat < 0x80) (char : Char) :
    .ofNat letter.toNat ∈ String.utf8EncodeChar char ↔ letter = char := by
  by_cases ascii : char.toNat < 0x80
  · rw [encodeChar_ascii ascii, mem_singleton]
    constructor
    · intro same
      have numbers := congrArg toNat same
      rw [toNat_byte (by omega), toNat_byte (by omega)] at numbers
      exact Char.toNat_inj.mp numbers
    · rintro rfl
      rfl
  · obtain ⟨lead, tail, bytes, whole, -⟩ := encodeChar_whole (Nat.le_of_not_lt ascii)
    rw [bytes]
    constructor
    · intro member
      have high := whole.high _ member
      rw [toNat_byte (by omega)] at high
      omega
    · rintro rfl
      exact absurd low ascii

theorem byte_mem_encode_iff {letter : Char} (low : letter.toNat < 0x80) (text : Text) :
    ofNat letter.toNat ∈ encode text ↔ letter ∈ text := by
  simp [encode, mem_flatMap, byte_mem_encodeChar_iff low]

theorem encode_letter {letter : Char} (low : letter.toNat < 0x80) (text : Text) :
    encode (letter :: text) = .ofNat letter.toNat :: encode text := by
  rw [encode_cons, encodeChar_ascii low]
  rfl

/-! ## Latin-1 -/

/-- Every byte as the character of its number. -/
def latin1 (bytes : Bytes) : Text := bytes.map fun byte => .ofNat byte.toNat

/-- All bytes are of ASCII. -/
def IsAscii (bytes : Bytes) : Prop := ∀ byte ∈ bytes, byte.toNat < 0x80

theorem IsAscii.of_subset {part : Bytes} (ascii : IsAscii text)
    (subset : ∀ byte ∈ part, byte ∈ text) : IsAscii part :=
  fun byte member => ascii byte (subset byte member)

instance (text : Bytes) : Decidable (IsAscii text) :=
  decidable_of_iff ((text.all fun byte => byte.toNat < 0x80) = true) (by simp [IsAscii])

theorem isAscii_nil : IsAscii [] := fun _ member => nomatch member

theorem isAscii_cons_iff :
    IsAscii (byte :: text) ↔ byte.toNat < 0x80 ∧ IsAscii text := forall_mem_cons

theorem isAscii_append_iff :
    IsAscii (text ++ rest) ↔ IsAscii text ∧ IsAscii rest := forall_mem_append

theorem byteChar_toNat (byte : UInt8) : (Char.ofNat byte.toNat).toNat = byte.toNat :=
  toNat_ofNat byte.toNat (.inl (by have := byte.toNat_lt; omega))

theorem byteChar_injective : Function.Injective fun byte : UInt8 => Char.ofNat byte.toNat := by
  intro byte other same
  have numbers := congrArg Char.toNat same
  simp only [byteChar_toNat] at numbers
  exact UInt8.toNat_inj.mp numbers

theorem latin1_injective : Function.Injective latin1 := map_injective_iff.mpr byteChar_injective

/-- Bytes of ASCII are the encoding of their characters. -/
theorem encode_latin1 (ascii : IsAscii bytes) : encode (latin1 bytes) = bytes := by
  induction bytes with
  | nil => rfl
  | cons byte bytes ih =>
    have low := ascii byte (by simp)
    rw [latin1, map_cons, encode_cons, encodeChar_ascii (by rwa [byteChar_toNat]),
      byteChar_toNat, UInt8.ofNat_toNat]
    exact congrArg (byte :: ·) (ih fun other member => ascii other (by simp [member]))

end ShortcutProxy.Utf8Codec
