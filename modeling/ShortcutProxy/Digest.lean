import ShortcutProxy.TextParts

/-!
# Content digests and slash-separated keys

The proxy names its durable records by the SHA-256 of an identity text. The
development does not compute SHA-256. It is given a digest: a function from
texts to texts that separates distinct texts and whose outputs, being
hexadecimal, contain neither of the two separators used to compose identities
and keys. Separation is the usual collision-freeness idealization; every result
that depends on it takes the digest as an argument.

`Digest.escaped` is a concrete digest. It replaces the separators by two-letter
escapes and is readable enough to serve in closed examples.
-/
namespace ShortcutProxy

/-- A collision-free digest of texts with separator-free output. -/
structure Digest where
  hash : String → String
  injective : Function.Injective hash
  bar_free : ∀ text, '|' ∉ (hash text).toList
  slash_free : ∀ text, '/' ∉ (hash text).toList

namespace Digest

open TextParts

/-- Equal digests come from equal texts. -/
@[simp] theorem hash_inj (digest : Digest) (left right : String) :
    digest.hash left = digest.hash right ↔ left = right :=
  digest.injective.eq_iff

/-- Replace each separator, and the escape letter itself, by a pair. -/
def escape : List Char → List Char
  | [] => []
  | '|' :: rest => '%' :: 'b' :: escape rest
  | '/' :: rest => '%' :: 's' :: escape rest
  | '%' :: rest => '%' :: '%' :: escape rest
  | letter :: rest => letter :: escape rest

/-- Undo `escape`. Texts outside its range are read as far as they go. -/
def unescape : List Char → List Char
  | [] => []
  | '%' :: 'b' :: rest => '|' :: unescape rest
  | '%' :: 's' :: rest => '/' :: unescape rest
  | '%' :: '%' :: rest => '%' :: unescape rest
  | letter :: rest => letter :: unescape rest

theorem unescape_escape (letters : List Char) : unescape (escape letters) = letters := by
  fun_induction escape letters with
  | case1 => rfl
  | case2 rest ih | case3 rest ih | case4 rest ih => simp [unescape, ih]
  | case5 letter rest notBar notSlash notEscape ih =>
    rw [unescape]
    · rw [ih]
    all_goals
      intro other same
      exact absurd same (by simpa using notEscape)

/-- Neither separator survives escaping. -/
theorem separator_not_mem_escape (separator : Char) (chosen : separator = '|' ∨ separator = '/')
    (letters : List Char) :
    separator ∉ escape letters := by
  fun_induction escape letters with
  | case1 => simp
  | case2 rest ih | case3 rest ih | case4 rest ih => rcases chosen with rfl | rfl <;> simp [ih]
  | case5 letter rest notBar notSlash notEscape ih =>
    have different : separator ≠ letter := by
      rcases chosen with rfl | rfl
      · exact fun same => notBar same.symm
      · exact fun same => notSlash same.symm
    simp [different, ih]

/-- A text composed with a bar determines both of its parts. -/
theorem append_bar_inj {first second rest other : String} (firstFree : '|' ∉ first.toList)
    (secondFree : '|' ∉ second.toList)
    (same : first ++ ("|" ++ rest) = second ++ ("|" ++ other)) : first = second ∧ rest = other := by
  have letters := congrArg String.toList same
  simp only [String.toList_append] at letters
  constructor <;> apply String.toList_injective
  · exact (before_append_cons firstFree rest.toList).symm.trans
      ((congrArg (before '|') letters).trans (before_append_cons secondFree other.toList))
  · exact (after_append_cons firstFree rest.toList).symm.trans
      ((congrArg (after '|') letters).trans (after_append_cons secondFree other.toList))

/-- Numbers are printed without bars. -/
theorem bar_not_mem_toString (number : Int) : '|' ∉ (toString number).toList := by
  have digits : ∀ n : Nat, '|' ∉ n.repr.toList := by
    intro n inside
    rw [Nat.repr_eq_ofList_toDigits, String.toList_ofList] at inside
    have digit := Nat.isDigit_of_mem_toDigits (by decide) (by decide) inside
    exact absurd digit (by decide)
  rw [Int.toString_eq_repr, Int.repr_eq_if]
  split
  · exact digits _
  · simp only [String.toList_append, List.mem_append, not_or]
    exact ⟨by decide, digits _⟩

/-- A concrete digest. Its existence shows that the idealization is consistent. -/
def escaped : Digest where
  hash text := .ofList (escape text.toList)
  injective left right same := by
    have letters : escape left.toList = escape right.toList := String.ofList_injective same
    have restored := congrArg unescape letters
    rw [unescape_escape, unescape_escape] at restored
    exact String.toList_injective restored
  bar_free text := by
    simpa using separator_not_mem_escape '|' (.inl rfl) text.toList
  slash_free text := by
    simpa using separator_not_mem_escape '/' (Or.inr rfl) text.toList

end Digest

end ShortcutProxy
