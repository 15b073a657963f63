import ShortcutProxy.Segments

/-!
# Reading parts of a text

A text over any alphabet is stripped of blanks at its ends, cut at its first separator,
and read as words with blanks between them. Renaming the letters commutes with each of
these, and so does taking another notion of blank that agrees on the letters that occur.
Assignments are looked up with the last one of a name in force.
-/

namespace ShortcutProxy.TextParts

open Segments List

variable {α β γ δ : Type}

/-- The text without the blanks at its ends. -/
def strip (blank : α → Bool) (text : List α) : List α := (text.dropWhile blank).rdropWhile blank

/-- The words of the text. -/
def words (blank : α → Bool) (text : List α) : List (List α) :=
  (text.splitOnP blank).filter fun word => !word.isEmpty

/-- The last value a name was given. -/
def lastValue [DecidableEq α] (name : α) (assignments : List (α × β)) : Option β :=
  assignments.reverse.lookup name

theorem mem_of_lastValue [DecidableEq α] {name : α} {assignments : List (α × β)} {value : β}
    (found : lastValue name assignments = some value) : (name, value) ∈ assignments := by
  rw [lastValue] at found
  rw [← mem_reverse]
  generalize assignments.reverse = listed at found ⊢
  induction listed with
  | nil => cases found
  | cons entry rest ih =>
    obtain ⟨other, assigned⟩ := entry
    rw [lookup_cons] at found
    split at found
    · next same =>
      rw [eq_of_beq same, Option.some.inj found]
      exact mem_cons_self
    · exact .tail _ (ih found)

variable {separator letter : α} {text : List α}

theorem mem_of_mem_splitOnP {blank : α → Bool} {part : List α} (listed : part ∈ text.splitOnP blank)
    (member : letter ∈ part) : letter ∈ text := by
  induction text generalizing part with
  | nil =>
    rw [splitOnP_nil, mem_singleton] at listed
    rw [listed] at member
    cases member
  | cons first rest ih =>
    rw [splitOnP_cons_eq_if_modifyHead] at listed
    split at listed
    · rcases mem_cons.mp listed with rfl | listed
      · cases member
      · exact .tail _ (ih listed member)
    · cases pieces : rest.splitOnP blank with
      | nil => exact absurd pieces (splitOnP_ne_nil _ _)
      | cons head tail =>
        rw [pieces] at listed ih
        rcases mem_cons.mp listed with rfl | listed
        · rcases mem_cons.mp member with rfl | member
          · exact mem_cons_self
          · exact .tail _ (ih mem_cons_self member)
        · exact .tail _ (ih (.tail _ listed) member)

section Cut

variable [DecidableEq α]

/-- The text before the first separator. -/
def before (separator : α) (text : List α) : List α := text.takeWhile (· ≠ separator)

/-- The text after the first separator, empty if there is none. -/
def after (separator : α) (text : List α) : List α := (text.dropWhile (· ≠ separator)).drop 1

theorem passes_of_free (free : separator ∉ text) :
    ∀ letter ∈ text, decide (letter ≠ separator) = true :=
  fun _ member => decide_eq_true fun same => free (same ▸ member)

theorem before_append_cons (free : separator ∉ text) (rest : List α) :
    before separator (text ++ separator :: rest) = text := by
  rw [before, takeWhile_append_of_pos (passes_of_free free)]
  simp

theorem after_append_cons (free : separator ∉ text) (rest : List α) :
    after separator (text ++ separator :: rest) = rest := by
  rw [after, dropWhile_append_of_pos (passes_of_free free)]
  simp

theorem before_of_free (free : separator ∉ text) : before separator text = text :=
  takeWhile_eq_self_iff.mpr (passes_of_free free)

theorem after_of_free (free : separator ∉ text) : after separator text = [] := by
  rw [after, dropWhile_eq_nil_iff.mpr (passes_of_free free)]
  rfl

theorem mem_of_mem_before (member : letter ∈ before separator text) : letter ∈ text :=
  (List.takeWhile_prefix _).subset member

theorem mem_of_mem_after (member : letter ∈ after separator text) : letter ∈ text :=
  (dropWhile_suffix _).subset (mem_of_mem_drop member)

theorem mem_of_mem_splitOn {part : List α} (listed : part ∈ text.splitOn separator)
    (member : letter ∈ part) : letter ∈ text :=
  mem_of_mem_splitOnP listed member

/-- Letters before the first separator belong to the first part. -/
theorem splitOn_append_of_free {first : List α} (free : separator ∉ first) (rest : List α) :
    (first ++ rest).splitOn separator = (rest.splitOn separator).modifyHead (first ++ ·) := by
  induction first with
  | nil =>
    rw [nil_append]
    cases rest.splitOn separator <;> rfl
  | cons letter first ih =>
    have differs : ¬ (letter == separator) = true := fun same =>
      free (by simp [eq_of_beq same])
    rw [cons_append, splitOn_cons_eq_if_modifyHead, if_neg differs,
      ih fun member => free (by simp [member]), modifyHead_modifyHead]
    rfl

end Cut

/-! ## Blanks -/

variable {blank : α → Bool}

theorem mem_of_mem_strip (member : letter ∈ strip blank text) : letter ∈ text :=
  (dropWhile_suffix _).subset ((List.rdropWhile_prefix _ _).subset member)

theorem strip_dropWhile (blank : α → Bool) (text : List α) :
    strip blank (text.dropWhile blank) = strip blank text := by
  rw [strip, dropWhile_idempotent, strip]

theorem dropWhile_append_of_kept (kept : blank letter = false) (first rest : List α) :
    (first ++ letter :: rest).dropWhile blank = first.dropWhile blank ++ letter :: rest := by
  induction first with
  | nil => simp [kept]
  | cons head first ih =>
    rw [cons_append, dropWhile_cons, dropWhile_cons]
    split
    · exact ih
    · rfl

theorem rdropWhile_append_of_kept (kept : blank letter = false) (first rest : List α) :
    (first ++ letter :: rest).rdropWhile blank = first ++ letter :: rest.rdropWhile blank := by
  have reversed := dropWhile_append_of_kept kept rest.reverse first.reverse
  simp only [List.rdropWhile, reverse_append, reverse_cons, append_assoc,
    singleton_append, reversed]
  simp

/-- Around a letter that is no blank the two ends are stripped apart. -/
theorem strip_append_cons (kept : blank letter = false) (first rest : List α) :
    strip blank (first ++ letter :: rest) =
      first.dropWhile blank ++ letter :: rest.rdropWhile blank := by
  rw [strip, dropWhile_append_of_kept kept, rdropWhile_append_of_kept kept]

theorem strip_rdropWhile (blank : α → Bool) (text : List α) :
    strip blank (text.rdropWhile blank) = strip blank text := by
  by_cases kept : ∃ letter ∈ text, blank letter = false
  · obtain ⟨letter, member, kept⟩ := kept
    obtain ⟨first, rest, rfl⟩ := append_of_mem member
    rw [rdropWhile_append_of_kept kept, strip_append_cons kept, strip_append_cons kept,
      rdropWhile_idempotent]
  · have blanks : ∀ letter ∈ text, blank letter = true := by
      intro letter member
      by_contra other
      exact kept ⟨letter, member, Bool.not_eq_true _ ▸ other⟩
    rw [rdropWhile_eq_nil_iff.mpr blanks, strip, strip, dropWhile_eq_nil_iff.mpr blanks]
    rfl

/-- A letter that is no blank is not stripped. -/
theorem mem_strip_iff (kept : blank letter = false) :
    letter ∈ strip blank text ↔ letter ∈ text := by
  constructor
  · exact mem_of_mem_strip
  · intro member
    obtain ⟨first, rest, rfl⟩ := append_of_mem member
    rw [strip_append_cons kept]
    simp

/-- Stripping a text before it is cut changes neither part once that is stripped. -/
theorem strip_cut_strip [DecidableEq α] (kept : blank separator = false)
    (present : separator ∈ text) :
    strip blank (before separator (strip blank text)) = strip blank (before separator text) ∧
      strip blank (after separator (strip blank text)) = strip blank (after separator text) := by
  obtain ⟨first, rest, rfl, free⟩ := eq_append_cons_of_mem present
  have trimmed : separator ∉ first.dropWhile blank :=
    fun member => free ((dropWhile_suffix _).subset member)
  rw [strip_append_cons kept, before_append_cons trimmed, before_append_cons free,
    after_append_cons trimmed, after_append_cons free]
  exact ⟨strip_dropWhile blank first, strip_rdropWhile blank rest⟩

variable {other : α → Bool}

section

variable (agree : ∀ letter ∈ text, blank letter = other letter)
include agree

/-- Two notions of blank that agree on the letters of a text strip it alike. -/
theorem dropWhile_congr :
    text.dropWhile blank = text.dropWhile other := by
  induction text with
  | nil => rfl
  | cons letter text ih =>
    rw [dropWhile_cons, dropWhile_cons, agree letter (by simp),
      ih fun next member => agree next (by simp [member])]

theorem strip_congr :
    strip blank text = strip other text := by
  rw [strip, strip, dropWhile_congr agree, List.rdropWhile, List.rdropWhile]
  congr 1
  refine dropWhile_congr fun letter member => agree letter ?_
  exact (dropWhile_suffix _).subset (mem_reverse.mp member)

theorem splitOnP_congr :
    text.splitOnP blank = text.splitOnP other := by
  induction text with
  | nil => rfl
  | cons letter text ih =>
    rw [splitOnP_cons_eq_if_modifyHead, splitOnP_cons_eq_if_modifyHead,
      agree letter (by simp), ih fun next member => agree next (by simp [member])]

theorem words_congr :
    words blank text = words other text := by
  rw [words, splitOnP_congr agree, words]

end

/-! ## Other letters -/

section Map

variable (rename : α → β)

theorem strip_map (blank : β → Bool) (text : List α) :
    strip blank (text.map rename) = (strip (blank ∘ rename) text).map rename := by
  simp only [strip, List.rdropWhile, dropWhile_map, ← map_reverse]

theorem splitOnP_map (blank : β → Bool) (text : List α) :
    (text.map rename).splitOnP blank =
      (text.splitOnP (blank ∘ rename)).map (.map rename) := by
  induction text with
  | nil => rfl
  | cons letter text ih =>
    rw [map_cons, splitOnP_cons_eq_if_modifyHead, ih,
      splitOnP_cons_eq_if_modifyHead]
    cases pieces : text.splitOnP (blank ∘ rename) with
    | nil => exact absurd pieces (splitOnP_ne_nil _ _)
    | cons head tail => simp only [Function.comp_apply]; split <;> rfl

theorem words_map (blank : β → Bool) (text : List α) :
    words blank (text.map rename) = (words (blank ∘ rename) text).map (.map rename) := by
  rw [words, splitOnP_map, filter_map, words]
  congr 2
  funext word
  cases word <;> rfl

theorem joined_map (separator : α) (segments : List (List α)) :
    joined (rename separator) (segments.map (.map rename)) =
      (joined separator segments).map rename := by
  induction segments with
  | nil => rfl
  | cons first rest ih =>
    cases rest with
    | nil => simp [joined]
    | cons second rest =>
      have tail := ih
      rw [map_cons] at tail
      have whole : joined separator (first :: second :: rest) =
          first ++ [separator] ++ joined separator (second :: rest) :=
        intercalate_cons_cons
      rw [map_cons, map_cons, joined, intercalate_cons_cons, ← joined, tail,
        whole]
      simp

variable [DecidableEq α] [DecidableEq β] {rename}

section

variable (injective : Function.Injective rename) (separator : α) (text : List α)
include injective

theorem splitOn_map :
    (text.map rename).splitOn (rename separator) =
      (text.splitOn separator).map (.map rename) := by
  rw [List.splitOn, splitOnP_map, List.splitOn]
  congr 2
  funext letter
  exact decide_eq_decide.mpr injective.eq_iff

theorem before_map :
    before (rename separator) (text.map rename) = (before separator text).map rename := by
  rw [before, takeWhile_map, before]
  congr 2
  funext letter
  simp [injective.eq_iff]

theorem after_map :
    after (rename separator) (text.map rename) = (after separator text).map rename := by
  rw [after, dropWhile_map, after, map_drop]
  congr 3
  funext letter
  simp [injective.eq_iff]

end

theorem lastValue_map (injective : Function.Injective rename) (value : γ → δ) (name : α)
    (assignments : List (α × γ)) :
    lastValue (rename name) (assignments.map fun entry => (rename entry.1, value entry.2)) =
      (lastValue name assignments).map value := by
  rw [lastValue, lastValue, ← map_reverse]
  induction assignments.reverse with
  | nil => rfl
  | cons entry rest ih =>
    have compare : (rename name == rename entry.1) = (name == entry.1) :=
      decide_eq_decide.mpr injective.eq_iff
    rw [map_cons, lookup_cons, lookup_cons, ih, compare]
    split <;> rfl

end Map

end ShortcutProxy.TextParts
