import Mathlib

/-!
# Ordered tables of records

A durable namespace is an ordered map from keys to records. Writing assigns an
optional record: a missing one deletes the key. A reader that walks a namespace
first takes a listing, in key order, and then visits the listed records one at a
time while the namespace changes under it.

The walking rule states when such a walk is harmless. If visiting a record never
touches the records still to be visited, then each record is visited with the
very value the listing gave for it. The rule is independent of what a record is
and of what a visit does.

Calls that run at the same time are a list of what each does next. A step takes
any of them and either replaces or drops it.
-/
namespace ShortcutProxy.Records

universe u v w

/-- A key of two parts, ordered by the first and then by the second. -/
structure Versioned where
  name : String
  number : Int
  deriving DecidableEq, Repr

instance : Ord Versioned where
  compare := compareLex (compareOn Versioned.name) (compareOn Versioned.number)

instance : Std.TransOrd Versioned :=
  inferInstanceAs (Std.TransCmp (compareLex (compareOn Versioned.name) (compareOn Versioned.number)))

instance : Std.LawfulEqOrd Versioned where
  eq_of_compare {left right} same := by
    obtain ⟨name, number⟩ := left
    obtain ⟨otherName, otherNumber⟩ := right
    have parts : compare name otherName = .eq ∧ compare number otherNumber = .eq :=
      compareLex_eq_eq.mp same
    rw [Std.LawfulEqOrd.eq_of_compare parts.1, Std.LawfulEqOrd.eq_of_compare parts.2]

/-- An ordered map from keys to records. -/
abbrev Table (κ : Type u) (υ : Type v) [Ord κ] [Std.TransOrd κ] := Std.ExtTreeMap κ υ

variable {κ : Type u} {υ : Type v} {σ : Type w}
variable [Ord κ] [Std.TransOrd κ]

/-- Store a record under a key, or delete the key. -/
def assign (table : Table κ υ) (key : κ) (record : Option υ) : Table κ υ :=
  match record with
  | some value => table.insert key value
  | none => table.erase key

/-- The records of a table in the order of their keys. -/
def listing (table : Table κ υ) : List υ :=
  table.toList.map Prod.snd

section Lawful

variable [Std.LawfulEqOrd κ]

/-- A record is listed exactly when some key holds it. -/
theorem mem_listing (table : Table κ υ) (record : υ) :
    record ∈ listing table ↔ ∃ key : κ, table[key]? = some record := by
  simp [listing, Std.ExtTreeMap.mem_toList_iff_getElem?_eq_some]

/-- Records that carry their own key are listed once each. -/
theorem listing_pairwise (table : Table κ υ) (identity : υ → κ)
    (keyed : ∀ (key : κ) (record : υ), table[key]? = some record → identity record = key) :
    (listing table).Pairwise fun first second => identity first ≠ identity second := by
  rw [listing, List.pairwise_map]
  refine table.distinct_keys_toList.imp_of_mem ?_
  rintro ⟨key, record⟩ ⟨otherKey, otherRecord⟩ inside otherInside distinct same
  apply distinct
  rw [Std.LawfulEqOrd.compare_eq_iff_eq]
  rw [Std.ExtTreeMap.mem_toList_iff_getElem?_eq_some] at inside otherInside
  exact (keyed _ _ inside).symm.trans (same.trans (keyed _ _ otherInside))

variable [DecidableEq κ]

theorem getElem?_assign (table : Table κ υ) (key other : κ) (record : Option υ) :
    (assign table key record)[other]? = if key = other then record else table[other]? := by
  cases record with
  | none => simp only [assign, Std.ExtTreeMap.getElem?_erase, Std.LawfulEqOrd.compare_eq_iff_eq]
  | some value =>
    simp only [assign, Std.ExtTreeMap.getElem?_insert, Std.LawfulEqOrd.compare_eq_iff_eq]

@[simp] theorem getElem?_assign_self (table : Table κ υ) (key : κ) (record : Option υ) :
    (assign table key record)[key]? = record := by
  simp [getElem?_assign]

theorem getElem?_assign_of_ne (table : Table κ υ) {key other : κ} (record : Option υ)
    (different : key ≠ other) :
    (assign table key record)[other]? = table[other]? := by
  simp [getElem?_assign, different]

/-- What an assignment holds was assigned, or stands under another key. -/
theorem of_getElem?_assign {table : Table κ υ} {key other : κ} {record : Option υ} {value : υ}
    (found : (assign table key record)[other]? = some value) :
    other = key ∧ record = some value ∨ key ≠ other ∧ table[other]? = some value := by
  rw [getElem?_assign] at found
  split at found
  · next same => exact .inl ⟨same.symm, found⟩
  · next different => exact .inr ⟨different, found⟩

end Lawful

/-- The first walking rule. A relation that every visit respects, and that
composes, relates the state before a walk to the state after it, provided each
visit keeps the records still to be visited in place. -/
theorem walk (reads : σ → υ → Prop) (visit : υ → σ → σ) (related : σ → σ → Prop)
    (reflexive : ∀ {state}, related state state)
    (transitive : ∀ {first second third},
      related first second → related second third → related first third)
    (apart : υ → υ → Prop)
    (visited : ∀ state record, reads state record → related state (visit record state))
    (kept : ∀ state record other, apart record other → reads state other →
      reads (visit record state) other)
    (records : List υ) (state : σ)
    (present : ∀ record ∈ records, reads state record) (distinct : records.Pairwise apart) :
    related state (records.foldl (fun current record => visit record current) state) := by
  induction records generalizing state with
  | nil => exact reflexive
  | cons record rest ih =>
    obtain ⟨headApart, restDistinct⟩ := List.pairwise_cons.mp distinct
    refine transitive (visited state record (present record List.mem_cons_self)) ?_
    refine ih (visit record state) ?_ restDistinct
    intro other inside
    exact kept _ _ _ (headApart other inside) (present other (List.mem_cons_of_mem _ inside))

/-! ## Calls in progress -/

/-- Replace an entry of a list of calls, or drop it. -/
def continueAt {α : Type} (calls : List α) (index : Nat) : Option α → List α
  | some call => calls.set index call
  | none => calls.eraseIdx index

variable {α : Type} {calls : List α}

/-- A call taken from a continued list is the continued one or an earlier one. -/
theorem mem_continueAt {index : Nat} {next : Option α} {call : α}
    (member : call ∈ continueAt calls index next) : next = some call ∨ call ∈ calls := by
  cases next with
  | none => exact .inr (List.mem_of_mem_eraseIdx member)
  | some continued =>
    rcases List.mem_or_eq_of_mem_set member with earlier | same
    · exact .inr earlier
    · exact .inl (congrArg some same.symm)

/-- Where the calls of a continued list come from: the continued call from its
own position, every other call from another one. -/
theorem exists_origin (calls : List α) (index : Nat) (next : Option α) :
    ∃ origin : Nat → Nat, Function.Injective origin ∧ ∀ (position : Nat) (call : α),
      (continueAt calls index next)[position]? = some call →
        (position = index ∧ next = some call) ∨
          (origin position ≠ index ∧ calls[origin position]? = some call) := by
  cases next with
  | some continued =>
    refine ⟨id, fun _ _ same => same, fun position call found => ?_⟩
    rw [continueAt, List.getElem?_set] at found
    by_cases same : index = position
    · subst same
      rw [if_pos rfl] at found
      split at found
      · exact .inl ⟨rfl, found⟩
      · cases found
    · rw [if_neg same] at found
      exact .inr ⟨fun equal => same equal.symm, found⟩
  | none =>
    refine ⟨fun position => if position < index then position else position + 1, ?_, ?_⟩
    · intro first second same
      dsimp only at same
      split at same <;> split at same <;> omega
    · intro position call found
      rw [continueAt, List.getElem?_eraseIdx] at found
      right
      dsimp only
      split at found
      · next early =>
        rw [if_pos early]
        exact ⟨by omega, found⟩
      · next late =>
        rw [if_neg late]
        exact ⟨by omega, found⟩

/-- A call at another position stays in the list. -/
theorem mem_continueAt_of_ne {index position : Nat} {next : Option α}
    {call : α} (found : calls[position]? = some call) (other : position ≠ index) :
    call ∈ continueAt calls index next := by
  cases next with
  | some continued =>
    refine List.mem_of_getElem? (i := position) ?_
    rw [continueAt, List.getElem?_set_ne other.symm]
    exact found
  | none =>
    rw [continueAt, List.mem_eraseIdx_iff_getElem?]
    exact ⟨position, other, found⟩

/-- The continued call is in the list. -/
theorem mem_continueAt_self {index : Nat} {old next : α}
    (found : calls[index]? = some old) : next ∈ continueAt calls index (some next) := by
  obtain ⟨inside, _⟩ := List.getElem?_eq_some_iff.mp found
  exact List.mem_set inside next

end ShortcutProxy.Records
