import Mathlib

/-!
# Programs with a journal of their effects

A program reads and changes a durable store by single effects, may raise an exception, and
returns a value. Every effect is recorded in a journal, and what was done before an
exception stays done. A crash stops a program after some of its effects.

`Effects` says that a state follows from another by effects of a kind, and `Makes` says so of
every run of a program, together with a property of the value it returns.
-/

namespace ShortcutProxy.Journaled

variable {δ ω ε α β : Type}

/-- A store and the effects that produced it, newest first. -/
structure State (δ ω : Type) where
  store : δ
  journal : List ω

/-- A program over a journaled store that may raise an exception. -/
def Program (δ ω ε α : Type) : Type := State δ ω → Except ε α × State δ ω

namespace Program

/-- Do nothing and return a value. -/
def done (value : α) : Program δ ω ε α := fun state => (.ok value, state)

/-- Run a program and continue with its value, unless it raises. -/
def andThen (program : Program δ ω ε α) (next : α → Program δ ω ε β) : Program δ ω ε β :=
  fun state => match program state with
    | (.ok value, later) => next value later
    | (.error failure, later) => (.error failure, later)

instance : Monad (Program δ ω ε) where
  pure := done
  bind := andThen

/-- Raise an exception. -/
def raise (failure : ε) : Program δ ω ε α := fun state => (.error failure, state)

/-- Read the store. -/
def read (view : δ → α) : Program δ ω ε α := fun state => (.ok (view state.store), state)

/-- Go on with the value of a computation that may fail. -/
def ofExcept : Except ε α → Program δ ω ε α
  | .ok value => done value
  | .error failure => raise failure

/-- Run a program and go on with a value if it raises. -/
def recoverWith (program : Program δ ω ε α) (handler : ε → Program δ ω ε α) : Program δ ω ε α :=
  fun state => match program state with
    | (.ok value, later) => (.ok value, later)
    | (.error failure, later) => handler failure later

end Program

variable {program : Program δ ω ε α} {next : α → Program δ ω ε β}

section Runs

variable (state : State δ ω)

@[simp] theorem Program.pure_apply (value : α) :
    (pure value : Program δ ω ε α) state = (.ok value, state) := rfl

@[simp] theorem Program.read_apply (view : δ → α) :
    (.read view : Program δ ω ε α) state = (.ok (view state.store), state) := rfl

theorem Program.bind_apply (program : Program δ ω ε α) (next : α → Program δ ω ε β) :
    (program >>= next) state = match program state with
      | (.ok value, later) => next value later
      | (.error failure, later) => (.error failure, later) := rfl

/-- A program that returned goes on with the next one. -/
theorem Program.bind_ok {value : α} {later : State δ ω}
    (returned : program state = (.ok value, later)) (next : α → Program δ ω ε β) :
    (program >>= next) state = next value later := by
  rw [bind_apply, returned]

/-- A program that raised does not go on. -/
theorem Program.bind_error {failure : ε} {later : State δ ω}
    (raised : program state = (.error failure, later)) (next : α → Program δ ω ε β) :
    (program >>= next) state = (.error failure, later) := by
  rw [bind_apply, raised]

/-- A program that never raises goes on with the next one. -/
theorem Program.bind_returns {program : Program δ ω ε Unit} (returns : (program state).1 = .ok ())
    (next : Unit → Program δ ω ε β) : (program >>= next) state = next () (program state).2 :=
  bind_ok state (Prod.ext returns rfl) next

/-- A handler that returns leaves nothing raised. -/
theorem Program.recoverWith_returns {program : Program δ ω ε Unit}
    {handler : ε → Program δ ω ε Unit}
    (returns : ∀ failure later, (handler failure later).1 = .ok ()) :
    (program.recoverWith handler state).1 = .ok () := by
  unfold recoverWith
  split
  · rfl
  · exact returns _ _

end Runs

section Effects

variable (apply : δ → ω → δ)

/-- Make one effect and record it. -/
def State.perform (state : State δ ω) (effect : ω) : State δ ω where
  store := apply state.store effect
  journal := effect :: state.journal

/-- The state after a list of effects, oldest first. -/
def State.performAll (state : State δ ω) (effects : List ω) : State δ ω :=
  effects.foldl (.perform apply) state

/-- The program that makes one effect. -/
def Program.perform (effect : ω) : Program δ ω ε Unit :=
  fun state => (.ok (), state.perform apply effect)

theorem State.performAll_append (state : State δ ω) (first second : List ω) :
    state.performAll apply (first ++ second) =
      (state.performAll apply first).performAll apply second :=
  List.foldl_append

theorem State.performAll_journal (state : State δ ω) (effects : List ω) :
    (state.performAll apply effects).journal = effects.reverse ++ state.journal := by
  induction effects generalizing state with
  | nil => rfl
  | cons effect rest ih =>
    refine (ih (state.perform apply effect)).trans ?_
    rw [List.reverse_cons, List.append_assoc]
    rfl

/-- The effects that lead from one state to another, oldest first. -/
def added (first second : State δ ω) : List ω :=
  (second.journal.take (second.journal.length - first.journal.length)).reverse

theorem added_performAll (state : State δ ω) (effects : List ω) :
    added state (state.performAll apply effects) = effects := by
  rw [added, State.performAll_journal, List.length_append, Nat.add_sub_cancel,
    List.take_left, List.reverse_reverse]

/-- The second state follows from the first by effects of a kind. -/
def Effects (kind : ω → Prop) (first second : State δ ω) : Prop :=
  ∃ effects, second = first.performAll apply effects ∧ ∀ effect ∈ effects, kind effect

section Kinds

variable {apply} {kind : ω → Prop} {first second third : State δ ω}

theorem Effects.refl (state : State δ ω) : Effects apply kind state state := ⟨[], rfl, by simp⟩

theorem Effects.trans (left : Effects apply kind first second)
    (right : Effects apply kind second third) : Effects apply kind first third := by
  obtain ⟨early, rfl, earlyKind⟩ := left
  obtain ⟨late, rfl, lateKind⟩ := right
  refine ⟨early ++ late, (first.performAll_append apply early late).symm, ?_⟩
  intro effect inside
  rcases List.mem_append.mp inside with soon | later
  · exact earlyKind effect soon
  · exact lateKind effect later

theorem Effects.mono {wider : ω → Prop} (implies : ∀ effect, kind effect → wider effect)
    (effects : Effects apply kind first second) : Effects apply wider first second := by
  obtain ⟨made, shape, each⟩ := effects
  exact ⟨made, shape, fun effect inside => implies effect (each effect inside)⟩

/-- The effects added are of the kind. -/
theorem Effects.added (effects : Effects apply kind first second) :
    ∀ effect ∈ Journaled.added first second, kind effect := by
  obtain ⟨made, rfl, each⟩ := effects
  rw [added_performAll]
  exact each

/-- What each effect of a kind keeps, any number of them keeps. -/
theorem Effects.preserve {invariant : δ → Prop}
    (step : ∀ store effect, kind effect → invariant store → invariant (apply store effect))
    (effects : Effects apply kind first second) (holds : invariant first.store) :
    invariant second.store := by
  obtain ⟨made, rfl, each⟩ := effects
  induction made generalizing first with
  | nil => exact holds
  | cons effect rest ih =>
    have next := step first.store effect (each effect List.mem_cons_self) holds
    exact ih next
      fun later inside => each later (List.mem_cons_of_mem effect inside)

/-- Effects that the kind says leave the store as it is do so together. -/
theorem Effects.store_eq (step : ∀ store effect, kind effect → apply store effect = store)
    (effects : Effects apply kind first second) : second.store = first.store := by
  have kept : ∀ store effect, kind effect → store = first.store →
      apply store effect = first.store :=
    fun store effect own same => (step store effect own).trans same
  exact @Effects.preserve δ ω apply kind first second (fun store => store = first.store)
    kept effects rfl

end Kinds

section Adds

variable {apply} {kind other : ω → Prop} {first second third : State δ ω}

/-- The second state follows from the first by effects of which one is of a kind. -/
def Adds (apply : δ → ω → δ) (kind : ω → Prop) (first second : State δ ω) : Prop :=
  ∃ effects, second = first.performAll apply effects ∧ ∃ effect ∈ effects, kind effect

theorem Adds.before (left : Effects apply other first second)
    (right : Adds apply kind second third) :
    Adds apply kind first third := by
  obtain ⟨early, rfl, -⟩ := left
  obtain ⟨late, rfl, effect, inside, own⟩ := right
  exact ⟨early ++ late, (first.performAll_append apply early late).symm, effect,
    List.mem_append_right early inside, own⟩

theorem Adds.after (left : Adds apply kind first second)
    (right : Effects apply other second third) :
    Adds apply kind first third := by
  obtain ⟨early, rfl, effect, inside, own⟩ := left
  obtain ⟨late, rfl, -⟩ := right
  exact ⟨early ++ late, (first.performAll_append apply early late).symm, effect,
    List.mem_append_left late inside, own⟩

theorem Adds.perform {effect : ω} (own : kind effect) (state : State δ ω) :
    Adds apply kind state (state.perform apply effect) :=
  ⟨[effect], rfl, effect, List.mem_singleton_self effect, own⟩

/-- An effect of the kind is among those added. -/
theorem Adds.added (adds : Adds apply kind first second) :
    ∃ effect ∈ Journaled.added first second, kind effect := by
  obtain ⟨made, rfl, effect, inside, own⟩ := adds
  rw [added_performAll]
  exact ⟨effect, inside, own⟩

end Adds

/-! ## Programs that make effects of a kind -/

/-- Every effect of the program is of the kind, and a value that it returns has the
property. -/
def Makes (kind : ω → Prop) (property : α → Prop) (program : Program δ ω ε α) : Prop :=
  ∀ state, Effects apply kind state (program state).2 ∧
    ∀ value, (program state).1 = .ok value → property value

section Makes

variable {apply} {kind : ω → Prop} {property : α → Prop}

theorem Makes.done {value : α} (has : property value) :
    Makes apply kind property (.done value : Program δ ω ε α) := by
  intro state
  refine ⟨.refl state, ?_⟩
  rintro _ ⟨⟩
  exact has

theorem Makes.pure {value : α} (has : property value) :
    Makes apply kind property (Pure.pure value : Program δ ω ε α) := .done has

theorem Makes.raise (failure : ε) :
    Makes apply kind property (.raise failure : Program δ ω ε α) := by
  intro state
  refine ⟨.refl state, ?_⟩
  rintro _ ⟨⟩

theorem Makes.read (view : δ → α) :
    Makes apply kind (fun _ => True) (.read view : Program δ ω ε α) :=
  fun state => ⟨.refl state, fun _ _ => trivial⟩

theorem Makes.ofExcept {outcome : Except ε α}
    (has : ∀ value, outcome = .ok value → property value) :
    Makes apply kind property (.ofExcept outcome : Program δ ω ε α) := by
  cases outcome with
  | ok value => exact .done (has value rfl)
  | error failure => exact .raise failure

theorem Makes.perform {effect : ω} (own : kind effect) :
    Makes apply kind (fun _ => True) (.perform apply effect : Program δ ω ε Unit) :=
  fun _ => ⟨⟨[effect], rfl, by simpa using own⟩, fun _ _ => trivial⟩

theorem Makes.bind {result : β → Prop} (first : Makes apply kind property program)
    (rest : ∀ value, property value → Makes apply kind result (next value)) :
    Makes apply kind result (program >>= next) := by
  intro state
  obtain ⟨made, has⟩ := first state
  rw [Program.bind_apply]
  cases outcome : program state with
  | mk value later =>
    rw [outcome] at made has
    cases value with
    | ok value =>
      obtain ⟨more, final⟩ := rest value (has value rfl) later
      exact ⟨made.trans more, final⟩
    | error failure =>
      refine ⟨made, ?_⟩
      rintro _ ⟨⟩

/-- `Makes.bind` when nothing needs to be known of the first value. -/
theorem Makes.andThen {result : β → Prop} (first : Makes apply kind (fun _ => True) program)
    (rest : ∀ value, Makes apply kind result (next value)) :
    Makes apply kind result (program >>= next) :=
  first.bind fun value _ => rest value

theorem Makes.recoverWith {handler : ε → Program δ ω ε α}
    (first : Makes apply kind property program)
    (rest : ∀ failure, Makes apply kind property (handler failure)) :
    Makes apply kind property (program.recoverWith handler) := by
  intro state
  obtain ⟨made, has⟩ := first state
  unfold Program.recoverWith
  cases outcome : program state with
  | mk value later =>
    rw [outcome] at made has
    cases value with
    | ok value => exact ⟨made, has⟩
    | error failure =>
      obtain ⟨more, final⟩ := rest failure later
      exact ⟨made.trans more, final⟩

theorem Makes.ite {condition : Prop} [Decidable condition] {left right : Program δ ω ε α}
    (yes : condition → Makes apply kind property left)
    (no : ¬condition → Makes apply kind property right) :
    Makes apply kind property (if condition then left else right) := by
  split
  · next holds => exact yes holds
  · next fails => exact no fails

theorem Makes.mono {weaker : α → Prop} (implies : ∀ value, property value → weaker value)
    (makes : Makes apply kind property program) : Makes apply kind weaker program := by
  intro state
  obtain ⟨made, has⟩ := makes state
  exact ⟨made, fun value returned => implies value (has value returned)⟩

theorem Makes.widen {wider : ω → Prop} (implies : ∀ effect, kind effect → wider effect)
    (makes : Makes apply kind property program) : Makes apply wider property program := by
  intro state
  obtain ⟨made, has⟩ := makes state
  exact ⟨made.mono implies, has⟩

end Makes

end Effects

/-! ## Histories -/

section Histories

variable {property : List α → α → Prop} {earlier later steps : List α} {step : α}

/-- Each step of a history has a property that depends on the steps before it. -/
def EachStep (property : List α → α → Prop) (steps : List α) : Prop :=
  ∀ earlier step later, steps = earlier ++ step :: later → property earlier step

theorem EachStep.nil : EachStep property [] := by
  intro first middle last split
  simp at split

theorem EachStep.of_append (each : EachStep property (earlier ++ later)) :
    EachStep property earlier := by
  intro first middle last split
  exact each first middle (last ++ later) (by simp [split])

theorem EachStep.last (each : EachStep property (earlier ++ [step])) : property earlier step :=
  each earlier step [] rfl

theorem EachStep.append_singleton (each : EachStep property steps) (holds : property steps step) :
    EachStep property (steps ++ [step]) := by
  intro first middle last split
  rcases List.eq_nil_or_concat last with rfl | ⟨rest, final, rfl⟩
  · obtain ⟨rfl, ends⟩ := List.append_inj' split rfl
    cases ends
    exact holds
  · rw [List.concat_eq_append, ← List.cons_append, ← List.append_assoc] at split
    obtain ⟨whole, -⟩ := List.append_inj' split rfl
    exact each first middle rest whole

end Histories

end ShortcutProxy.Journaled
