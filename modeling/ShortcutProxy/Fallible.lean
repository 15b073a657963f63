import Mathlib

/-!
# Computations that may fail

Reading a successful run back: what a step that was mapped over a list returned for
each item, and what a reply holds whose failure counts as no reply.
-/

namespace ShortcutProxy.Fallible

variable {ε α β γ : Type}

variable {first : Except ε α}

/-- A sequence of two steps gives a result when both do. -/
theorem bind_eq_ok {next : α → Except ε β} {result : β} :
    (first >>= next) = .ok result ↔ ∃ value, first = .ok value ∧ next value = .ok result := by
  cases first with
  | error | ok => simp [bind, Except.bind]

variable {step : α → Except ε β} {items : List α} {results : List β}

variable {reading : α → β}

theorem mapM_ok (each : ∀ item ∈ items, step item = .ok (reading item)) :
    items.mapM step = .ok (items.map reading) := by
  induction items with
  | nil => rfl
  | cons item rest ih =>
    rw [List.mapM_cons, each item List.mem_cons_self,
      ih fun other member => each other (List.mem_cons_of_mem item member)]
    rfl

/-- A step that succeeds on a list succeeds on each item, with the results in order. -/
theorem forall₂_of_mapM (computed : items.mapM step = .ok results) :
    List.Forall₂ (fun item result => step item = .ok result) items results := by
  induction items generalizing results with
  | nil =>
    rw [← Except.ok.inj computed]
    exact .nil
  | cons item rest ih =>
    rw [List.mapM_cons] at computed
    obtain ⟨result, first, computed⟩ := bind_eq_ok.mp computed
    obtain ⟨others, later, computed⟩ := bind_eq_ok.mp computed
    rw [← Except.ok.inj computed]
    exact .cons first (ih later)

/-- If a view of each result is determined by its item, so is the list of views. -/
theorem mapM_map_eq_ok (view : β → γ) {reading : α → γ}
    (determined : ∀ {item result}, step item = .ok result → view result = reading item)
    (computed : items.mapM step = .ok results) : results.map view = items.map reading := by
  have each := forall₂_of_mapM computed
  clear computed
  induction each with
  | nil => rfl
  | cons first _ ih =>
    rw [List.map_cons, List.map_cons, determined first, ih]

theorem mapM_eq_ok
    (determined : ∀ {item result}, step item = .ok result → result = reading item)
    (computed : items.mapM step = .ok results) : results = items.map reading := by
  have mapped := mapM_map_eq_ok id determined computed
  rwa [List.map_id] at mapped

/-- Related lists have related items. -/
theorem exists_related {related : α → β → Prop} (each : List.Forall₂ related items results)
    {item : α} (member : item ∈ items) : ∃ result ∈ results, related item result := by
  induction each with
  | nil => cases member
  | cons first _ ih =>
    rcases List.mem_cons.mp member with rfl | later
    · exact ⟨_, List.mem_cons_self .., first⟩
    · obtain ⟨result, inside, holds⟩ := ih later
      exact ⟨result, List.mem_cons_of_mem _ inside, holds⟩

theorem exists_ok_of_mapM (computed : items.mapM step = .ok results) {item : α}
    (member : item ∈ items) : ∃ result, step item = .ok result := by
  obtain ⟨result, _, succeeded⟩ := exists_related (forall₂_of_mapM computed) member
  exact ⟨result, succeeded⟩

theorem map_eq_ok {result : β} :
    first.map reading = .ok result ↔ ∃ value, first = .ok value ∧ reading value = result := by
  cases first <;> simp [Except.map]

theorem toOption_bind (first : Except ε α) (next : α → Except ε β) :
    (first >>= next).toOption = first.toOption.bind fun value => (next value).toOption := by
  cases first <;> rfl

/-- Sequences whose first steps give corresponding results succeed together when what
follows does. -/
theorem isOk_bind_congr {ε' δ : Type} {other : Except ε' β} {relate : α → β}
    {next : α → Except ε γ} {after : β → Except ε' δ}
    (same : other.toOption = first.toOption.map relate)
    (later : ∀ value, first = .ok value → (next value).isOk = (after (relate value)).isOk) :
    (first >>= next).isOk = (other >>= after).isOk := by
  cases first with
  | error failure =>
    cases other with
    | error _ => rfl
    | ok value => cases same
  | ok value =>
    cases other with
    | error _ => cases same
    | ok result =>
      obtain rfl : result = relate value := by simpa [Except.toOption] using same
      exact later value rfl

theorem toOption_eq_some {reply : Except ε α} {value : α} :
    reply.toOption = some value ↔ reply = .ok value := by
  cases reply with
  | error | ok => simp [Except.toOption]

theorem join_toOption_eq_some {reply : Except ε (Option α)} {value : α} :
    reply.toOption.join = some value ↔ reply = .ok (some value) := by
  rw [Option.join_eq_some_iff, toOption_eq_some]

end ShortcutProxy.Fallible
