import Mathlib

/-!
# Texts made of segments

A text is cut into segments at a separator, and segments are put together in two
ways: joined, with separators between them, and closed, with a separator after each.
A closed text is what a folder prefix is. Segments without separators can be read off
a closed text, so one closed text starts another just when its segments come first.
-/

namespace ShortcutProxy.Segments

open List

variable {α : Type} {separator : α}

/-! ## One separator -/

section Separator

variable {name first tail : List α}

/-- The end of the text, or the separator and more. -/
def EndsOrSeparates (separator : α) (tail : List α) : Prop :=
  tail = [] ∨ ∃ rest, tail = separator :: rest

/-- A name without separators that starts a text starts its first part. -/
theorem isPrefix_append_iff (free : separator ∉ name) (ends : EndsOrSeparates separator tail) :
    name <+: first ++ tail ↔ name <+: first := by
  constructor
  · intro starts
    rcases ends with rfl | ⟨rest, rfl⟩
    · rwa [append_nil] at starts
    · rcases prefix_or_prefix_of_prefix starts (prefix_append first _) with
        inside | ⟨more, rfl⟩
      · exact inside
      · rw [prefix_append_right_inj] at starts
        cases more with
        | nil => rw [append_nil]
        | cons head more =>
          have same : head = separator := (cons_prefix_cons.mp starts).1
          refine absurd ?_ free
          rw [← same]
          simp
  · exact fun starts => starts.trans (prefix_append _ _)

/-- A name and the separator that start a text start it before a part without
separators. -/
theorem append_isPrefix_of_append (free : separator ∉ tail)
    (starts : name ++ [separator] <+: first ++ tail) : name ++ [separator] <+: first := by
  rcases prefix_or_prefix_of_prefix starts (prefix_append first tail) with
    inside | ⟨more, whole⟩
  · exact inside
  · rcases more.eq_nil_or_concat with rfl | ⟨init, last, rfl⟩
    · rw [append_nil] at whole
      exact ⟨[], by rw [append_nil, whole]⟩
    · rw [concat_eq_append, ← append_assoc] at whole
      have same : last = separator := by simpa using (append_inj' whole rfl).2
      rw [← whole, append_assoc, prefix_append_right_inj] at starts
      refine absurd (starts.subset ?_) free
      rw [← same]
      simp

/-- The part before the first separator is determined. -/
theorem append_separator_inj {other rest others : List α} (free : separator ∉ name)
    (otherFree : separator ∉ other)
    (same : name ++ separator :: rest = other ++ separator :: others) :
    name = other ∧ rest = others := by
  rcases append_eq_append_iff.mp same with ⟨more, longer, ended⟩ | ⟨more, longer, ended⟩
  · cases more with
    | nil => simp_all
    | cons head more =>
      refine absurd ?_ otherFree
      rw [longer, ← (List.cons.inj ended).1]
      simp
  · cases more with
    | nil => simp_all
    | cons head more =>
      refine absurd ?_ free
      rw [longer, ← (List.cons.inj ended).1]
      simp

end Separator

/-! ## Segments -/

/-- The segments with separators between them. -/
def joined (separator : α) (segments : List (List α)) : List α :=
  [separator].intercalate segments

/-- The segments with a separator after each. -/
def closed (separator : α) (segments : List (List α)) : List α :=
  segments.flatMap fun segment => segment ++ [separator]

@[simp] theorem closed_nil : closed separator [] = [] := rfl

@[simp] theorem closed_cons (segment : List α) (segments : List (List α)) :
    closed separator (segment :: segments) =
      segment ++ separator :: closed separator segments := by
  simp [closed]

@[simp] theorem closed_append (segments others : List (List α)) :
    closed separator (segments ++ others) =
      closed separator segments ++ closed separator others := by
  simp [closed]

variable {segments : List (List α)}

/-- Joined segments and a separator at the end are closed. -/
theorem joined_append_separator (nonempty : segments ≠ []) :
    joined separator segments ++ [separator] = closed separator segments := by
  induction segments with
  | nil => exact absurd rfl nonempty
  | cons first rest ih =>
    cases rest with
    | nil => simp [joined]
    | cons second rest =>
      have tail := ih (cons_ne_nil _ _)
      rw [joined] at tail
      rw [joined, intercalate_cons_cons, append_assoc, tail, closed_cons first,
        append_assoc, singleton_append]

theorem joined_append {others : List (List α)} (nonempty : others ≠ []) :
    joined separator (segments ++ others) =
      closed separator segments ++ joined separator others := by
  induction segments with
  | nil => rfl
  | cons first rest ih =>
    obtain ⟨next, more, listed⟩ : ∃ next more, rest ++ others = next :: more :=
      exists_cons_of_ne_nil (append_ne_nil_of_right_ne_nil rest nonempty)
    rw [listed] at ih
    rw [cons_append, listed, joined, intercalate_cons_cons, ← joined,
      ih, closed_cons]
    simp

/-- Closed texts compare as their segments do. -/
theorem closed_isPrefix_iff {others : List (List α)}
    (free : ∀ segment ∈ segments, separator ∉ segment)
    (otherFree : ∀ segment ∈ others, separator ∉ segment) :
    closed separator segments <+: closed separator others ↔ segments <+: others := by
  constructor
  · intro starts
    induction segments generalizing others with
    | nil => exact nil_prefix
    | cons first rest ih =>
      cases others with
      | nil =>
        have none := prefix_nil.mp starts
        simp at none
      | cons other others =>
        rw [closed_cons, closed_cons] at starts
        obtain ⟨end', whole⟩ := starts
        rw [append_assoc, cons_append] at whole
        obtain ⟨rfl, same⟩ := append_separator_inj (free first mem_cons_self)
          (otherFree other mem_cons_self) whole
        rw [prefix_cons_inj]
        exact ih (fun segment member => free segment (.tail _ member))
          (fun segment member => otherFree segment (.tail _ member)) ⟨end', same⟩
  · rintro ⟨rest, rfl⟩
    rw [closed_append]
    exact prefix_append _ _

/-- What lies strictly below segments starts with them closed. -/
theorem closed_isPrefix_joined_iff {others : List (List α)}
    (free : ∀ segment ∈ segments, separator ∉ segment)
    (otherFree : ∀ segment ∈ others, separator ∉ segment) (nonempty : others ≠ []) :
    closed separator segments <+: joined separator others ↔
      ∃ rest, rest ≠ [] ∧ others = segments ++ rest := by
  constructor
  · intro starts
    have whole : closed separator segments <+: closed separator others := by
      rw [← joined_append_separator nonempty]
      exact starts.trans (prefix_append _ _)
    obtain ⟨rest, rfl⟩ := (closed_isPrefix_iff free otherFree).mp whole
    refine ⟨rest, ?_, rfl⟩
    rintro rfl
    rw [append_nil] at starts nonempty
    have longer := starts.length_le
    rw [← joined_append_separator nonempty, length_append] at longer
    exact absurd longer (by simp)
  · rintro ⟨rest, more, rfl⟩
    rw [joined_append more]
    exact prefix_append _ _

/-! ## Cutting off an end -/

/-- Cutting off an end stops at a part whose last element is kept. -/
theorem rdropWhile_append_of_last {cut : α → Bool} {kept : List α}
    (last : ∀ nonempty : kept ≠ [], cut (kept.getLast nonempty) = false) (tail : List α) :
    (kept ++ tail).rdropWhile cut = kept ++ tail.rdropWhile cut := by
  induction tail using List.reverseRecOn with
  | nil =>
    rw [append_nil, rdropWhile_nil, append_nil, rdropWhile_eq_self_iff]
    exact fun nonempty => by simp [last nonempty]
  | append_singleton init final ih =>
    rw [← append_assoc, rdropWhile_concat, rdropWhile_concat, ih]
    split
    · rfl
    · rw [append_assoc]

/-! ## Splitting -/

section Splitting

variable [DecidableEq α]

theorem not_mem_of_mem_splitOn {text segment : List α} (member : segment ∈ text.splitOn separator) :
    separator ∉ segment := by
  induction text generalizing segment with
  | nil =>
    rw [splitOn_nil, mem_singleton] at member
    simp [member]
  | cons first rest ih =>
    rw [splitOn_cons_eq_if_modifyHead] at member
    split at member
    · rcases mem_cons.mp member with rfl | member
      · exact not_mem_nil
      · exact ih member
    next other =>
      cases pieces : rest.splitOn separator with
      | nil => exact absurd pieces (splitOn_ne_nil _ _)
      | cons head tail =>
        rw [pieces] at member ih
        rcases mem_cons.mp member with rfl | member
        · rw [mem_cons, not_or]
          exact ⟨fun same => other (by simp [same]), ih mem_cons_self⟩
        · exact ih (.tail _ member)

/-- A text without the separators at its start does not start with one. -/
theorem head?_dropWhile_ne (separator : α) (text : List α) :
    (text.dropWhile (· = separator)).head? ≠ some separator := by
  have first := head?_dropWhile_not (fun char => decide (char = separator)) text
  intro same
  rw [same] at first
  simp at first

theorem head?_trim_ne (separator : α) (text : List α) :
    ((text.dropWhile (· = separator)).rdropWhile (· = separator)).head? ≠ some separator := by
  obtain ⟨cut, whole⟩ := rdropWhile_prefix (· = separator) (text.dropWhile (· = separator))
  intro same
  refine head?_dropWhile_ne separator text ?_
  rw [← whole, head?_append, same]
  rfl

/-- A closed text splits into its segments, and what comes after it. -/
theorem splitOn_closed_append (free : ∀ segment ∈ segments, separator ∉ segment) (text : List α) :
    (closed separator segments ++ text).splitOn separator =
      segments ++ text.splitOn separator := by
  induction segments with
  | nil => rfl
  | cons first rest ih =>
    rw [closed_cons, append_assoc, cons_append,
      splitOn_append_cons_self_of_not_mem (free first mem_cons_self),
      ih fun segment member => free segment (.tail _ member), cons_append]

/-- The segments of a text that are not empty. -/
def names (separator : α) (text : List α) : List (List α) :=
  (text.splitOn separator).filter (· ≠ [])

theorem mem_names_iff {text segment : List α} :
    segment ∈ names separator text ↔ segment ∈ text.splitOn separator ∧ segment ≠ [] := by
  simp [names]

/-- Joined names are read off again. -/
theorem names_joined (named : ∀ segment ∈ segments, separator ∉ segment ∧ segment ≠ []) :
    names separator (joined separator segments) = segments := by
  cases segments with
  | nil => simp [names, joined, splitOn_nil]
  | cons first rest =>
    have split : (joined separator (first :: rest)).splitOn separator = first :: rest :=
      splitOn_intercalate separator (fun segment member => (named segment member).1)
        (cons_ne_nil _ _)
    rw [names, split, filter_eq_self]
    exact fun segment member => by simpa using (named segment member).2

theorem names_names (text : List α) :
    names separator (joined separator (names separator text)) = names separator text :=
  names_joined fun _ member =>
    ⟨not_mem_of_mem_splitOn (mem_names_iff.mp member).1, (mem_names_iff.mp member).2⟩

/-- A map that treats what lies between separators apart keeps the order of names. -/
theorem names_of_separate {decode : List α → List α}
    (apart : ∀ before after, decode (before ++ separator :: after) =
      decode before ++ separator :: decode after) (empty : decode [] = []) (text : List α) :
    names separator (decode text) =
      (names separator text).flatMap fun segment => names separator (decode segment) := by
  have pieces : ∀ segments : List (List α), segments ≠ [] →
      (decode (joined separator segments)).splitOn separator =
        segments.flatMap fun segment => (decode segment).splitOn separator := by
    intro segments nonempty
    induction segments with
    | nil => exact absurd rfl nonempty
    | cons first rest ih =>
      cases rest with
      | nil => simp [joined]
      | cons second rest =>
        have tail := ih (cons_ne_nil _ _)
        have split : joined separator (first :: second :: rest) =
            first ++ separator :: joined separator (second :: rest) := by
          simp [joined, intercalate_cons_cons]
        rw [split, apart, splitOn_append_cons_self, tail]
        simp only [flatMap_cons]
  have whole : (decode text).splitOn separator =
      (text.splitOn separator).flatMap fun segment => (decode segment).splitOn separator := by
    have read := pieces (text.splitOn separator) (splitOn_ne_nil _ _)
    rwa [joined, intercalate_splitOn] at read
  have unnamed : names separator (decode []) = [] := by simp [empty, names, splitOn_nil]
  have skipping : ∀ segments : List (List α),
      segments.flatMap (fun segment => names separator (decode segment)) =
        (segments.filter (· ≠ [])).flatMap fun segment => names separator (decode segment) := by
    intro segments
    induction segments with
    | nil => rfl
    | cons first rest ih =>
      by_cases blank : first = []
      · rw [flatMap_cons, blank, unnamed, nil_append, ih,
          filter_cons_of_neg (by simp)]
      · rw [flatMap_cons, ih, filter_cons_of_pos (by simp [blank]),
          flatMap_cons]
  rw [names, whole, filter_flatMap]
  exact skipping _

/-- Separators around a text add empty segments only. -/
theorem filter_splitOn_trim (separator : α) {keep : List α → Bool} (dropped : keep [] = false)
    (text : List α) :
    (((text.dropWhile (· = separator)).rdropWhile (· = separator)).splitOn separator).filter keep =
      (text.splitOn separator).filter keep := by
  have left : ∀ text : List α, ((text.dropWhile (· = separator)).splitOn separator).filter keep =
      (text.splitOn separator).filter keep := by
    intro text
    induction text with
    | nil => rfl
    | cons first rest ih =>
      by_cases same : first = separator
      · rw [dropWhile_cons_of_pos (by simpa using same), ih,
          splitOn_cons_eq_if_modifyHead, if_pos (by simp [same]),
          filter_cons_of_neg (by simp [dropped])]
      · rw [dropWhile_cons_of_neg (by simpa using same)]
  have right : ∀ text : List α, ((text.rdropWhile (· = separator)).splitOn separator).filter keep =
      (text.splitOn separator).filter keep := by
    intro text
    induction text using List.reverseRecOn with
    | nil => rfl
    | append_singleton init last ih =>
      rw [rdropWhile_concat]
      split
      next same =>
        rw [of_decide_eq_true same, splitOn_append_cons_self, ih,
          splitOn_nil, filter_append, filter_cons_of_neg (by simp [dropped]),
          filter_nil, append_nil]
      · rfl
  rw [right, left]

end Splitting

end ShortcutProxy.Segments
