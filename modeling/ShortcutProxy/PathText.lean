import Mathlib

/-!
# Keys and paths as text

The operations on text by which keys are taken apart, on the characters of the text.
-/

namespace ShortcutProxy.PathText

/-- The text starts with this. -/
def startsWith (start text : String) : Bool := start.toList.isPrefixOf text.toList

/-- The text without its first characters. -/
def dropChars (count : Nat) (text : String) : String := .ofList (text.toList.drop count)

/-- The text has this somewhere in it. -/
def containsText (part text : String) : Bool := decide (part.toList <:+: text.toList)

/-- The text without the leading characters of a kind. -/
def trimLeft (drop : Char → Bool) (text : String) : String :=
  .ofList (text.toList.dropWhile drop)

/-- The text without the leading and trailing characters of a kind. -/
def trim (drop : Char → Bool) (text : String) : String :=
  .ofList (((text.toList.dropWhile drop).reverse.dropWhile drop).reverse)

/-- The text without the white space around it. -/
def strip (text : String) : String := trim Char.isWhitespace text

/-- The text with one character in place of another. -/
def replaceChar (old new : Char) (text : String) : String :=
  .ofList (text.toList.map fun char => if char = old then new else char)

/-- The text in lower case, for the letters of ASCII. -/
def lower (text : String) : String := .ofList (text.toList.map .toLower)

/-- The key is a path, or lies below it. -/
def atOrBelow (path key : String) : Bool := key = path || startsWith (path ++ "/") key

theorem startsWith_iff {start text : String} :
    startsWith start text = true ↔ start.toList <+: text.toList := List.isPrefixOf_iff_prefix

theorem atOrBelow_iff {path key : String} :
    atOrBelow path key = true ↔ key = path ∨ path.toList ++ ['/'] <+: key.toList := by
  simp only [atOrBelow, Bool.or_eq_true, decide_eq_true_eq, startsWith_iff, String.toList_append]
  rfl

end ShortcutProxy.PathText
