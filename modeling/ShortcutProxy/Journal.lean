import Mathlib

/-!
# Journals of keyed writes

A durable store is observed through the sequence of writes it has accepted. A
journal lists those writes newest first; the value of a key is what its most
recent entry left there. Writers are retained because a protocol may permit one
of its operations a change that it forbids to the others.

The central law turns a local obligation into a global one. If every entry was
permitted by the value standing under its key when it was written, then any two
successive writes of one key are related by the same permission, regardless of
what was written under other keys in between. Nothing here depends on a
particular record format, key space or set of operations.
-/
namespace ShortcutProxy.Journal

universe u v w

/-- One accepted write. A missing value is a deletion. -/
structure Entry (κ : Type u) (ω : Type v) (υ : Type w) where
  key : κ
  writer : ω
  value : Option υ

variable {κ : Type u} {ω : Type v} {υ : Type w}

variable {journal : List (Entry κ ω υ)} {permitted : ω → Option υ → Option υ → Prop}

section Reading

variable [DecidableEq κ]

/-- The value a reader finds under a key: that of its most recent entry. -/
def latest (key : κ) : List (Entry κ ω υ) → Option υ
  | [] => none
  | entry :: older => if entry.key = key then entry.value else latest key older

@[simp] theorem latest_nil (key : κ) : latest key ([] : List (Entry κ ω υ)) = none := rfl

@[simp] theorem latest_cons_self (entry : Entry κ ω υ) (older : List (Entry κ ω υ)) :
    latest entry.key (entry :: older) = entry.value := by
  simp [latest]

/-- A write under one key does not disturb a reader of another. -/
theorem latest_cons_of_ne (key : κ) (entry : Entry κ ω υ) (older : List (Entry κ ω υ))
    (different : entry.key ≠ key) :
    latest key (entry :: older) = latest key older := by
  simp [latest, different]

/-- Entries under other keys may be skipped until the first entry of this one. -/
theorem latest_append_of_absent (key : κ) (newer older : List (Entry κ ω υ))
    (absent : ∀ entry ∈ newer, entry.key ≠ key) :
    latest key (newer ++ older) = latest key older := by
  induction newer with
  | nil => rfl
  | cons entry rest ih =>
    rw [List.cons_append, latest_cons_of_ne _ _ _ (absent entry List.mem_cons_self)]
    exact ih fun other inside => absent other (List.mem_cons_of_mem _ inside)

/-- A value read under a key was written there by some entry. -/
theorem mem_of_latest {key : κ} {value : υ} (found : latest key journal = some value) :
    ∃ entry ∈ journal, entry.key = key ∧ entry.value = some value := by
  induction journal with
  | nil => cases found
  | cons entry older ih =>
    by_cases same : entry.key = key
    · rw [latest, if_pos same] at found
      exact ⟨entry, List.mem_cons_self, same, found⟩
    · rw [latest_cons_of_ne _ _ _ same] at found
      obtain ⟨writing, inside, written⟩ := ih found
      exact ⟨writing, List.mem_cons_of_mem _ inside, written⟩

/-- Every entry was permitted by the value its key had immediately before. -/
def Lawful (permitted : ω → Option υ → Option υ → Prop) : List (Entry κ ω υ) → Prop
  | [] => True
  | entry :: older =>
    permitted entry.writer (latest entry.key older) entry.value ∧ Lawful permitted older

/-- Lawfulness of a journal is inherited by every older part of it. -/
theorem Lawful.of_append {newer older : List (Entry κ ω υ)}
    (lawful : Lawful permitted (newer ++ older)) : Lawful permitted older := by
  induction newer with
  | nil => exact lawful
  | cons entry rest ih => exact ih lawful.2

/-- The entry following an older part was permitted by the value found there. -/
theorem Lawful.permits {newer older : List (Entry κ ω υ)} {entry : Entry κ ω υ}
    (lawful : Lawful permitted (newer ++ entry :: older)) :
    permitted entry.writer (latest entry.key older) entry.value :=
  (Lawful.of_append lawful).1

end Reading

/-- `second` is the first write under `first`'s key after `first` itself. -/
def Successive (journal : List (Entry κ ω υ)) (first second : Entry κ ω υ) : Prop :=
  ∃ newer between older,
    journal = newer ++ second :: (between ++ first :: older) ∧
      second.key = first.key ∧ ∀ entry ∈ between, entry.key ≠ first.key

/-- In a lawful journal, successive writes of one key are themselves permitted:
the value read by the second is exactly the value written by the first. -/
theorem Lawful.successive [DecidableEq κ] {first second : Entry κ ω υ}
    (lawful : Lawful permitted journal) (successive : Successive journal first second) :
    permitted second.writer first.value second.value := by
  obtain ⟨newer, between, older, shape, sameKey, apart⟩ := successive
  rw [shape] at lawful
  have permits := lawful.permits
  rw [sameKey, latest_append_of_absent _ _ _ apart, latest_cons_self] at permits
  exact permits

/-- A property that permission gives to every written value holds of every
value in a lawful journal. -/
theorem Lawful.forall_value [DecidableEq κ] {property : υ → Prop}
    (lawful : Lawful permitted journal)
    (ensured : ∀ writer old value, permitted writer old (some value) → property value)
    (entry : Entry κ ω υ) (member : entry ∈ journal) (value : υ)
    (written : entry.value = some value) : property value := by
  obtain ⟨newer, older, shape⟩ := List.append_of_mem member
  rw [shape] at lawful
  have permits := lawful.permits
  rw [written] at permits
  exact ensured _ _ _ permits

end ShortcutProxy.Journal
