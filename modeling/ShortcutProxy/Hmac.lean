import ShortcutProxy.PercentEncoding

/-!
# Keyed hashes

A hash gives thirty-two bytes for any text. A keyed hash hashes the text after the key
mixed with one pad, and the result after the key mixed with another; a key longer than a
block is hashed first. Hashes are written as hexadecimal digits in lower case, and the
digits hold the bytes.
-/

namespace ShortcutProxy.Hmac

open PercentEncoding

/-- A hash function. -/
structure Hash where
  digest : Bytes → Bytes
  length : ∀ text, (digest text).length = 32

/-- The bytes of a block. -/
def blockSize : Nat := 64

/-- The key, filled up to a block. -/
def blockKey (hash : Hash) (key : Bytes) : Bytes :=
  let short := if blockSize < key.length then hash.digest key else key
  short ++ List.replicate (blockSize - short.length) 0

/-- The keyed hash of a text. -/
def hmac (hash : Hash) (key text : Bytes) : Bytes :=
  let block := blockKey hash key
  hash.digest (block.map (· ^^^ 0x5c) ++ hash.digest (block.map (· ^^^ 0x36) ++ text))

/-- The hexadecimal digit of a value below sixteen, in lower case. -/
def lowerDigit (value : UInt8) : UInt8 := if value < 10 then value + 48 else value + 87

/-- The digits of bytes. -/
def hex (text : Bytes) : Bytes :=
  text.flatMap fun byte => [lowerDigit (byte / 16), lowerDigit (byte % 16)]

theorem hexValue_lowerDigit {value : UInt8} (below : value.toNat < 16) :
    hexValue (lowerDigit value) = some value := by
  have digits : ∀ index : Fin 16,
      hexValue (lowerDigit (.ofNat index)) = some (.ofNat index) := by decide
  have read := digits ⟨value.toNat, below⟩
  rwa [UInt8.ofNat_toNat] at read

end ShortcutProxy.Hmac
