import ShortcutProxy.LeaseTerms

/-!
# The state in the lease record

The Managers keep their shared state in the lease record, so every lease operation rewrites
it. An acquisition and a release copy the state of the record they read, and a mutation
changes one name. Since a swap commits only over the record it read, the state in place is
the one that the committed mutations make up, in the order of their commits.
-/
namespace ShortcutProxy.LeaderLease

open Records

variable {ι υ : Type}

/-- The state that a lease carries, empty before the first record. -/
def stateOf (lease : Option (LeaseRecord υ)) : Table String υ :=
  (lease.map LeaseRecord.state).getD ∅

/-- `read_state`. -/
def System.readState (system : System ι υ) (name : String) : Option υ :=
  (stateOf system.lease)[name]?

/-- What a committed swap means for the state. -/
def Cause.applied (state : Table String υ) : Cause υ → Table String υ
  | .acquire => state
  | .release => state
  | .mutate _ name value => state.insert name value

/-- The state that the mutations of a history make up. -/
def committedState : List (Event ι υ) → Table String υ
  | [] => ∅
  | .swap _ cause _ _ :: older => cause.applied (committedState older)
  | .fencedPut _ _ _ :: older => committedState older
  | .fencedDelete _ _ _ :: older => committedState older

/-- The event commits a mutation of the name. -/
def Event.mutates (name : String) : Event ι υ → Prop
  | .swap _ (.mutate _ other _) _ _ => other = name
  | _ => False

section Plans

variable {managers : Managers ι} {manager : ι} {now : Int} {read : Option (LeaseRecord υ)}
  {record : LeaseRecord υ}

theorem acquireRecord_state (planned : acquireRecord managers manager now read = some record) :
    record.state = stateOf read := by
  cases read with
  | none =>
    cases planned
    rfl
  | some prior =>
    simp only [acquireRecord] at planned
    split at planned
    · cases planned
      rfl
    · cases planned

theorem releaseRecord_state {fence : Int}
    (planned : releaseRecord managers manager fence read = some record) :
    record.state = stateOf read := by
  cases read with
  | none => cases planned
  | some prior =>
    simp only [releaseRecord] at planned
    split at planned
    · cases planned
      rfl
    · cases planned

end Plans

/-! ## Runs -/

/-- The lease carries the state that its history made up. -/
def Carries (system : System ι υ) : Prop :=
  stateOf system.lease = committedState system.history

section Runs

variable {managers : Managers ι} {system : System ι υ} [DecidableEq υ]

/-- A swap whose record carries what its cause means for the state that was read. -/
theorem Carries.swap (carries : Carries system) (index : Nat) (manager : ι) {cause : Cause υ}
    (now : Int) {read : Option (LeaseRecord υ)} {record : LeaseRecord υ} (won lost : Progress υ)
    (applied : record.state = cause.applied (stateOf read)) :
    Carries (system.swap index manager cause now read record won lost) := by
  unfold System.swap
  split
  · next same =>
    rw [← same, carries] at applied
    exact applied
  · exact carries

variable [DecidableEq ι]

theorem Carries.advance (carries : Carries system) (sound : Sound managers system) (index : Nat) :
    Carries (system.advance managers index) := by
  unfold System.advance
  split
  · exact carries
  · next manager call waiting =>
    have planned : call.Planned managers manager :=
      sound.planned (manager, call) (List.mem_of_getElem? waiting)
    -- only the three swaps write the record
    split
    · exact carries
    · split <;> exact carries
    · exact carries.swap _ _ _ _ _ (acquireRecord_state planned)
    · exact carries
    · split <;> exact carries
    · obtain ⟨fence, gives⟩ := planned
      exact carries.swap _ _ _ _ _ (releaseRecord_state gives)
    · split
      · exact carries
      · split <;> exact carries
    · exact carries
    · exact carries
    · dsimp only
      split <;> exact carries
    · refine carries.swap _ _ _ _ _ ?_
      cases mutateRecord_move planned with
      | mutated _ _ _ prior _ held own live changed =>
        rw [changed]
        rfl
    · exact carries

theorem Carries.step (carries : Carries system) (sound : Sound managers system)
    (action : Action ι υ) : Carries (system.step managers action) := by
  cases action with
  | begin manager request => exact carries
  | advance index => exact carries.advance sound index
  | abandon index => exact carries
  | fencedPut | fencedDelete =>
    simp only [System.step]
    split <;> exact carries

/-- The state in place is the one that the committed mutations make up. -/
theorem run_carries (managers : Managers ι) (actions : List (Action ι υ)) :
    Carries (run managers actions) := by
  induction actions using List.reverseRecOn with
  | nil => rfl
  | append_singleton earlier action ih =>
    rw [run, List.foldl_append]
    exact ih.step (run_sound earlier) action

end Runs

/-- Events that do not mutate a name leave its value. -/
theorem committedState_append {newer older : List (Event ι υ)} {name : String}
    (others : ∀ event ∈ newer, ¬event.mutates name) :
    (committedState (newer ++ older))[name]? = (committedState older)[name]? := by
  induction newer with
  | nil => rfl
  | cons event rest ih =>
    have earlier := ih fun other inside =>
      others other (List.mem_cons_of_mem _ inside)
    cases event with
    | fencedPut | fencedDelete => exact earlier
    | swap manager cause now record =>
      cases cause with
      | acquire | release => exact earlier
      | mutate fence other value =>
        have apart : other ≠ name := others _ List.mem_cons_self
        refine .trans ?_ earlier
        exact getElem?_assign_of_ne _ (some value) apart

/-- Over any number of Managers and any interleaving of their calls: from the commit of
`mutate_state(name, value)` until another mutation of the name commits, `read_state(name)`
returns the value. -/
theorem mutated_state_stays [DecidableEq ι] [DecidableEq υ] (managers : Managers ι)
    (actions : List (Action ι υ)) (newer older : List (Event ι υ)) (manager : ι) (fence now : Int)
    (name : String) (value : υ) (record : LeaseRecord υ)
    (committed : (run managers actions).history =
      newer ++ .swap manager (.mutate fence name value) now record :: older)
    (others : ∀ event ∈ newer, ¬event.mutates name) :
    (run managers actions).readState name = some value := by
  rw [System.readState, run_carries managers actions, committed, committedState_append others]
  exact getElem?_assign_self _ _ (some value)

/-- Two Managers whose terms last ten milliseconds. -/
def twoManagers : Managers Bool where
  ownerId manager := if manager then "a" else "b"
  ttlMs _ := 10
  owner_nonempty manager := by cases manager <;> decide
  ttl_positive _ := by decide

/-- The first Manager mutates a name. Its term expires, and the second one takes over and
mutates another name. -/
def handover : List (Action Bool Nat) :=
  [.begin true (.acquireOrRenew 0), .advance 0, .advance 0, .advance 0,
    .begin true (.mutateState "x" 7 5), .advance 0, .advance 0, .advance 0,
    .begin false (.acquireOrRenew 20), .advance 0, .advance 0, .advance 0,
    .begin false (.mutateState "y" 8 25), .advance 0, .advance 0, .advance 0]

theorem handover_keeps_state : (run twoManagers handover).readState "x" = some 7 :=
  mutated_state_stays twoManagers handover _ _ true 1 5 "x" 7 _
    (show _ = [_, _] ++ _ :: [_] from rfl) (by simp [Event.mutates])

end ShortcutProxy.LeaderLease
