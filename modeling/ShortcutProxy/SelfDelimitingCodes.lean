import Mathlib

/-!
# Self-delimiting codes

A code writes values as characters such that a value can be told from whatever follows it.
Codes compose: pairs are written one after the other, and each element of a list is announced
by a mark. A code therefore separates the values it writes.
-/

namespace ShortcutProxy

/-- A way of writing values that determines the value and what follows it. -/
structure Code (α : Type) where
  write : α → List Char
  exact : ∀ first second rest other,
    write first ++ rest = write second ++ other → first = second ∧ rest = other

namespace Code

variable {α β : Type}

/-- A character is written as it is. -/
def char : Code Char where
  write letter := [letter]
  exact _ _ _ _ same := List.cons.inj same

/-- Values are written through values that separate them. -/
def through (code : Code β) (image : α → β) (injective : Function.Injective image) : Code α where
  write value := code.write (image value)
  exact first second rest other same := by
    obtain ⟨values, rests⟩ := code.exact _ _ rest other same
    exact ⟨injective values, rests⟩

/-- A pair is written as its two parts. -/
def pair (left : Code α) (right : Code β) : Code (α × β) where
  write value := left.write value.1 ++ right.write value.2
  exact first second rest other same := by
    rw [List.append_assoc, List.append_assoc] at same
    obtain ⟨lefts, remaining⟩ := left.exact _ _ _ _ same
    obtain ⟨rights, rests⟩ := right.exact _ _ _ _ remaining
    exact ⟨Prod.ext lefts rights, rests⟩

/-- Each element of a list follows a mark, and another mark ends the list. -/
def writeList (code : Code α) : List α → List Char
  | [] => ['.']
  | value :: rest => ',' :: (code.write value ++ writeList code rest)

theorem writeList_exact (code : Code α) (first second : List α) (rest other : List Char)
    (same : code.writeList first ++ rest = code.writeList second ++ other) :
    first = second ∧ rest = other := by
  induction first generalizing second with
  | nil =>
    cases second with
    | nil => exact ⟨rfl, (List.cons.inj same).2⟩
    | cons value values => exact absurd (List.cons.inj same).1 (by decide)
  | cons value values ih =>
    cases second with
    | nil => exact absurd (List.cons.inj same).1 (by decide)
    | cons head tail =>
      have written : code.write value ++ code.writeList values ++ rest =
          code.write head ++ code.writeList tail ++ other := (List.cons.inj same).2
      rw [List.append_assoc, List.append_assoc] at written
      obtain ⟨heads, remaining⟩ := code.exact _ _ _ _ written
      obtain ⟨tails, rests⟩ := ih tail remaining
      exact ⟨by rw [heads, tails], rests⟩

/-- The code of lists. -/
def list (code : Code α) : Code (List α) where
  write := code.writeList
  exact := code.writeList_exact

/-- A text is written as the list of its characters. -/
def text : Code String := char.list.through String.toList fun _ _ => String.toList_injective

/-- An optional value is written as a list of at most one element. -/
def option (code : Code α) : Code (Option α) :=
  code.list.through Option.toList fun first second same => by
    cases first <;> cases second <;> simp_all

/-- A code separates the values it writes. -/
theorem write_injective (code : Code α) :
    Function.Injective fun value => String.ofList (code.write value) := by
  intro first second same
  have written : code.write first = code.write second := String.ofList_injective same
  exact (code.exact first second [] [] (by rw [written])).1

end Code

end ShortcutProxy
