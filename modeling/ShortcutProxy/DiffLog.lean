import Mathlib

/-!
# Logs of differences

A collection of named values is published version by version. Each version is logged as
its difference from the one before: the names that are new are put, the names that are
gone are dropped, and a name that stays is not mentioned. Replaying the log from nothing
gives the last version, provided that a name which stays keeps its value.
-/

namespace ShortcutProxy.DiffLog

variable {P V : Type} [DecidableEq P]

inductive Change (P V : Type) where
  | put (path : P) (value : V)
  | drop (path : P)
  deriving DecidableEq

def Change.path : Change P V → P
  | .put path _ => path
  | .drop path => path

/-- The contents after a change. -/
def Change.apply (contents : P → Option V) : Change P V → P → Option V
  | .put path value => Function.update contents path (some value)
  | .drop path => Function.update contents path none

def replay (contents : P → Option V) (changes : List (Change P V)) : P → Option V :=
  changes.foldl Change.apply contents

/-- What a list of named values says of a name. -/
def contentsOf (entries : List (P × V)) (path : P) : Option V := entries.lookup path

def names (entries : List (P × V)) : List P := entries.map Prod.fst

/-- The entries whose names another list does not have. -/
def without (entries others : List (P × V)) : List (P × V) :=
  entries.filter fun entry => entry.1 ∉ names others

def diff (old new : List (P × V)) : List (Change P V) :=
  ((without new old).map fun entry => .put entry.1 entry.2) ++
    (without old new).map fun entry => .drop entry.1

/-- A name that is in both lists has the same value in both. -/
def Agree (old new : List (P × V)) : Prop :=
  ∀ path before after, contentsOf old path = some before → contentsOf new path = some after →
    before = after

/-! ## Lookup -/

variable {entries : List (P × V)} {path : P} {contents : P → Option V}

theorem contentsOf_eq_none_iff : contentsOf entries path = none ↔ path ∉ names entries := by
  induction entries with
  | nil => simp [contentsOf, names]
  | cons entry rest ih =>
    obtain ⟨name, value⟩ := entry
    by_cases same : path = name
    · subst same
      simp [contentsOf, names]
    · have differs : (path == name) = false := by simpa using same
      simpa [contentsOf, names, List.lookup, differs, same] using ih

theorem mem_names_of_contentsOf {value : V} (found : contentsOf entries path = some value) :
    path ∈ names entries := by
  by_contra missing
  rw [contentsOf_eq_none_iff.mpr missing] at found
  cases found

theorem exists_contentsOf (named : path ∈ names entries) :
    ∃ value, contentsOf entries path = some value := by
  refine Option.ne_none_iff_exists'.mp fun missing => ?_
  exact contentsOf_eq_none_iff.mp missing named

theorem names_without (entries others : List (P × V)) (path : P) :
    path ∈ names (without entries others) ↔ path ∈ names entries ∧ path ∉ names others := by
  simp only [names, without, List.mem_map, List.mem_filter, decide_eq_true_eq]
  constructor
  · rintro ⟨entry, ⟨member, apart⟩, rfl⟩
    exact ⟨⟨entry, member, rfl⟩, apart⟩
  · rintro ⟨⟨entry, member, rfl⟩, apart⟩
    exact ⟨entry, ⟨member, apart⟩, rfl⟩

theorem nodup_names_without (distinct : (names entries).Nodup) (others : List (P × V)) :
    (names (without entries others)).Nodup :=
  distinct.sublist (List.filter_sublist.map Prod.fst)

theorem contentsOf_without (entries others : List (P × V)) (apart : path ∉ names others) :
    contentsOf (without entries others) path = contentsOf entries path := by
  induction entries with
  | nil => rfl
  | cons entry rest ih =>
    obtain ⟨name, value⟩ := entry
    unfold without at ih ⊢
    by_cases same : path = name
    · subst same
      simp [contentsOf, apart]
    · have differs : (path == name) = false := by simpa using same
      by_cases kept : name ∈ names others
      · simpa [contentsOf, List.lookup, differs, kept] using ih
      · simpa [contentsOf, List.lookup, differs, kept] using ih

/-! ## Replay -/

theorem replay_append (contents : P → Option V) (first second : List (Change P V)) :
    replay contents (first ++ second) = replay (replay contents first) second :=
  List.foldl_append

theorem replay_of_untouched {changes : List (Change P V)}
    (untouched : ∀ change ∈ changes, change.path ≠ path) :
    replay contents changes path = contents path := by
  induction changes generalizing contents with
  | nil => rfl
  | cons change rest ih =>
    have later := @ih (change.apply contents)
      fun other member => untouched other (List.mem_cons_of_mem change member)
    have apart : path ≠ change.path := (untouched change List.mem_cons_self).symm
    refine later.trans ?_
    cases change with
    | put | drop => exact Function.update_of_ne apart _ _

/-- Changes made from entries touch the names of the entries only. -/
theorem replay_of_unnamed {change : P × V → Change P V}
    (samePath : ∀ entry, (change entry).path = entry.1) (unnamed : path ∉ names entries) :
    replay contents (entries.map change) path = contents path := by
  refine replay_of_untouched ?_
  intro made member same
  obtain ⟨entry, listed, rfl⟩ := List.mem_map.mp member
  rw [samePath] at same
  exact unnamed (same ▸ List.mem_map_of_mem listed)

/-- Names that are put once each get their values. -/
theorem replay_put (distinct : (names entries).Nodup) (named : path ∈ names entries) :
    replay contents (entries.map fun entry => .put entry.1 entry.2) path =
      contentsOf entries path := by
  induction entries generalizing contents with
  | nil => simp [names] at named
  | cons entry rest ih =>
    obtain ⟨name, value⟩ := entry
    obtain ⟨apart, distinctRest⟩ := List.nodup_cons.mp distinct
    by_cases same : path = name
    · subst same
      refine (replay_of_unnamed (fun _ => rfl) apart).trans ?_
      simp [Change.apply, contentsOf]
    · have differs : (path == name) = false := by simpa using same
      have inRest : path ∈ names rest := by simpa [names, same] using named
      refine (ih distinctRest inRest).trans ?_
      simp [contentsOf, List.lookup, differs]

theorem replay_drop (named : path ∈ names entries) :
    replay contents (entries.map fun entry => .drop entry.1) path = none := by
  induction entries generalizing contents with
  | nil => simp [names] at named
  | cons entry rest ih =>
    by_cases inRest : path ∈ names rest
    · exact ih inRest
    · have same : path = entry.1 := (List.mem_cons.mp named).resolve_right inRest
      refine (replay_of_unnamed (fun _ => rfl) inRest).trans ?_
      simp [Change.apply, same]

/-- Replaying a difference on the old contents gives the new ones. -/
theorem replay_diff {old new : List (P × V)} (distinct : (names new).Nodup)
    (agree : Agree old new) : replay (contentsOf old) (diff old new) = contentsOf new := by
  funext path
  unfold diff
  rw [replay_append]
  have put := names_without new old path
  have dropped := names_without old new path
  by_cases stays : path ∈ names new
  · rw [replay_of_unnamed (fun _ => rfl) fun gone => (dropped.mp gone).2 stays]
    by_cases was : path ∈ names old
    · obtain ⟨before, isBefore⟩ := exists_contentsOf was
      obtain ⟨after, isAfter⟩ := exists_contentsOf stays
      rw [replay_of_unnamed (fun _ => rfl) fun fresh => (put.mp fresh).2 was, isBefore, isAfter,
        agree path before after isBefore isAfter]
    · rw [replay_put (nodup_names_without distinct old) (put.mpr ⟨stays, was⟩),
        contentsOf_without new old was]
  · rw [contentsOf_eq_none_iff.mpr stays]
    by_cases was : path ∈ names old
    · exact replay_drop (dropped.mpr ⟨was, stays⟩)
    · rw [replay_of_unnamed (fun _ => rfl) fun gone => was (dropped.mp gone).1,
        replay_of_unnamed (fun _ => rfl) fun fresh => stays (put.mp fresh).1]
      exact contentsOf_eq_none_iff.mpr was

/-- No name is both put and dropped by a difference. -/
theorem not_put_and_drop_of_diff {old new : List (P × V)} {value : V}
    (isPut : .put path value ∈ diff old new) : Change.drop path ∉ diff old new := by
  have added : path ∈ names new := by
    rcases List.mem_append.mp isPut with member | member
    · obtain ⟨entry, listed, same⟩ := List.mem_map.mp member
      obtain ⟨rfl, rfl⟩ := Change.put.inj same
      exact ((names_without new old entry.1).mp (List.mem_map_of_mem listed)).1
    · obtain ⟨entry, _, same⟩ := List.mem_map.mp member
      cases same
  intro isDropped
  rcases List.mem_append.mp isDropped with member | member
  · obtain ⟨entry, _, same⟩ := List.mem_map.mp member
    cases same
  · obtain ⟨entry, listed, same⟩ := List.mem_map.mp member
    obtain rfl := Change.drop.inj same
    exact ((names_without old new entry.1).mp (List.mem_map_of_mem listed)).2 added

end ShortcutProxy.DiffLog
