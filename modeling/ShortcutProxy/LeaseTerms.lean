import ShortcutProxy.LeaderLease

/-!
# Terms of the leader lease

A swap of the lease record is planned from the record read and commits only if
that record is still in place. Hence each committed swap is a move from the
record it replaced: a term is taken from nobody or from an expired holder with a
higher fence, renewed by its holder, released, or used to mutate state.

All statements about terms follow from the moves by induction over the history.
The two facts carried along are that no record has a higher fence than the
latest one, and that a released term is either the latest one, with no owner, or
below it.
-/
namespace ShortcutProxy.LeaderLease

open Records

variable {ι υ : Type}

/-- The fence of a lease, zero before the first record. -/
def fenceOf (lease : Option (LeaseRecord υ)) : Int :=
  (lease.map LeaseRecord.fence).getD 0

@[simp] theorem fenceOf_none : fenceOf (none : Option (LeaseRecord υ)) = 0 := rfl

@[simp] theorem fenceOf_some (record : LeaseRecord υ) : fenceOf (some record) = record.fence := rfl

/-- What a Manager's swap at a clock reading can do to the lease record. -/
inductive LeaseMove (managers : Managers ι) (manager : ι) (now : Int) :
    Cause υ → Option (LeaseRecord υ) → LeaseRecord υ → Prop
  | taken (old : Option (LeaseRecord υ)) (record : LeaseRecord υ)
      (owner : record.ownerId = managers.ownerId manager)
      (free : ∀ prior, old = some prior → prior.ownerId = "" ∨ prior.expired now = true)
      (fence : record.fence = fenceOf old + 1) :
      LeaseMove managers manager now .acquire old record
  | renewed (prior record : LeaseRecord υ) (held : prior.ownerId = managers.ownerId manager)
      (owner : record.ownerId = managers.ownerId manager) (fence : record.fence = prior.fence) :
      LeaseMove managers manager now .acquire (some prior) record
  | released (prior record : LeaseRecord υ) (held : prior.ownerId = managers.ownerId manager)
      (owner : record.ownerId = "") (fence : record.fence = prior.fence) :
      LeaseMove managers manager now .release (some prior) record
  | mutated (term : Int) (name : String) (value : υ) (prior record : LeaseRecord υ)
      (held : prior.ownerId = managers.ownerId manager) (own : prior.fence = term)
      (live : prior.expired now = false)
      (changed : record = { prior with state := prior.state.insert name value }) :
      LeaseMove managers manager now (.mutate term name value) (some prior) record

section Plans

variable {managers : Managers ι} {manager : ι} {now : Int} {read : Option (LeaseRecord υ)}
  {record : LeaseRecord υ}

/-- What `acquire_or_renew` plans is a takeover or a renewal. -/
theorem acquireRecord_move (planned : acquireRecord managers manager now read = some record) :
    LeaseMove managers manager now .acquire read record := by
  cases read with
  | none =>
    cases planned
    exact .taken none _ rfl (fun prior absent => by cases absent) (by simp)
  | some prior =>
    simp only [acquireRecord] at planned
    split at planned
    · next takes =>
      cases planned
      cases held : prior.heldLive (managers.ownerId manager) now with
      | true =>
        have owner : prior.ownerId = managers.ownerId manager := by
          simp only [LeaseRecord.heldLive, decide_eq_true_eq] at held
          exact held.1
        exact .renewed prior _ owner rfl (by simp)
      | false =>
        refine .taken (some prior) _ rfl ?_ (by simp)
        rintro earlier ⟨⟩
        rcases takes with free | expired | live
        · exact .inl free
        · exact .inr expired
        · rw [held] at live
          cases live
    · cases planned

theorem releaseRecord_move {fence : Int}
    (planned : releaseRecord managers manager fence read = some record) :
    LeaseMove managers manager now .release read record := by
  cases read with
  | none => cases planned
  | some prior =>
    simp only [releaseRecord] at planned
    split at planned
    · next own =>
      cases planned
      exact .released prior _ own.1 rfl rfl
    · cases planned

theorem mutateRecord_move {fence : Int} {name : String} {value : υ}
    (planned : mutateRecord managers manager fence now name value read = some record) :
    LeaseMove managers manager now (.mutate fence name value) read record := by
  cases read with
  | none => cases planned
  | some prior =>
    simp only [mutateRecord] at planned
    split at planned
    · next own =>
      cases planned
      exact .mutated fence name value prior _ own.1 own.2.1 (by simpa using own.2.2) rfl
    · cases planned

end Plans

/-! ## Lawful histories -/

/-- The lease record that a history leaves in place. -/
def leaseOf : List (Event ι υ) → Option (LeaseRecord υ)
  | [] => none
  | .swap _ _ _ record :: _ => some record
  | .fencedPut _ _ _ :: older => leaseOf older
  | .fencedDelete _ _ _ :: older => leaseOf older

variable (managers : Managers ι)

/-- An event that the store may commit after an older history. -/
def Admitted (older : List (Event ι υ)) : Event ι υ → Prop
  | .swap manager cause now record => LeaseMove managers manager now cause (leaseOf older) record
  | .fencedPut owner fence _ | .fencedDelete owner fence _ =>
    owner ≠ "" ∧ ∃ record, leaseOf older = some record ∧ record.ownerId = owner ∧
      record.fence = fence

/-- Every event was admitted by the history before it. -/
def LawfulHistory (managers : Managers ι) : List (Event ι υ) → Prop
  | [] => True
  | event :: older => Admitted managers older event ∧ LawfulHistory managers older

/-- A lease record was in place at some time. -/
def Recorded (record : LeaseRecord υ) (history : List (Event ι υ)) : Prop :=
  ∃ manager cause now, .swap manager cause now record ∈ history

/-- A term was released at some time. -/
def Released (fence : Int) (history : List (Event ι υ)) : Prop :=
  ∃ manager now record, .swap manager .release now record ∈ history ∧ record.fence = fence

/-- The latest record dominates all earlier ones. -/
structure Dominated (history : List (Event ι υ)) : Prop where
  nonnegative : 0 ≤ fenceOf (leaseOf history)
  below : ∀ record, Recorded record history → record.fence ≤ fenceOf (leaseOf history)
  sameOwner : ∀ record, Recorded record history → record.ownerId ≠ "" →
    record.fence = fenceOf (leaseOf history) →
      ∃ current, leaseOf history = some current ∧
        (current.ownerId = record.ownerId ∨ current.ownerId = "")
  released : ∀ fence, Released fence history →
    fence < fenceOf (leaseOf history) ∨
      ∃ current, leaseOf history = some current ∧ current.ownerId = "" ∧ current.fence = fence

variable {older : List (Event ι υ)} {record : LeaseRecord υ}

section Histories

variable {managers : Managers ι}

theorem LawfulHistory.of_append {newer : List (Event ι υ)}
    (lawful : LawfulHistory managers (newer ++ older)) : LawfulHistory managers older := by
  induction newer with
  | nil => exact lawful
  | cons event rest ih => exact ih lawful.2

variable {manager : ι} {cause : Cause υ} {old : Option (LeaseRecord υ)}

/-- A move never lowers the fence, and raises it when the old record had no
owner or another one. -/
theorem LeaseMove.fence_le {now : Int} (move : LeaseMove managers manager now cause old record) :
    fenceOf old ≤ record.fence := by
  cases move with
  | taken _ _ owner free fence => omega
  | renewed prior _ held owner fence | released prior _ held owner fence => simp [fence]
  | mutated term name value prior _ held own live changed => simp [changed]

/-- A move that keeps the fence keeps a holder: it starts from a record of the
Manager itself. -/
theorem LeaseMove.held_of_fence_eq {now : Int}
    (move : LeaseMove managers manager now cause old record) (kept : record.fence = fenceOf old) :
    ∃ prior, old = some prior ∧ prior.ownerId = managers.ownerId manager ∧
      (record.ownerId = managers.ownerId manager ∨ record.ownerId = "") := by
  cases move with
  | taken _ _ owner free fence => omega
  | renewed prior _ held owner fence => exact ⟨prior, rfl, held, .inl owner⟩
  | released prior _ held owner fence => exact ⟨prior, rfl, held, .inr owner⟩
  | mutated term name value prior _ held own live changed =>
    exact ⟨prior, rfl, held, .inl (by rw [changed]; exact held)⟩

/-- A move to an owner from a record of another owner takes an expired term. -/
theorem LeaseMove.takeover {now : Int} {prior : LeaseRecord υ}
    (move : LeaseMove managers manager now cause (some prior) record) (owned : record.ownerId ≠ "")
    (different : prior.ownerId ≠ record.ownerId) :
    record.ownerId = managers.ownerId manager ∧
      (prior.ownerId = "" ∨ prior.expired now = true) := by
  cases move with
  | taken _ _ owner free fence => exact ⟨owner, free prior rfl⟩
  | renewed _ _ held owner fence => exact absurd (held.trans owner.symm) different
  | released _ _ held owner fence => exact absurd owner owned
  | mutated term name value _ _ held own live changed =>
    exact absurd (by rw [changed]) different

/-- Events other than swaps leave the records of a history as they are. -/
theorem Dominated.of_commit {event : Event ι υ} (dominated : Dominated older)
    (same : leaseOf (event :: older) = leaseOf older)
    (notSwap : ∀ manager cause now record, event ≠ .swap manager cause now record) :
    Dominated (event :: older) := by
  have recorded : ∀ record, Recorded record (event :: older) → Recorded record older := by
    rintro record ⟨manager, cause, now, inside⟩
    rcases List.mem_cons.mp inside with rfl | earlier
    · exact absurd rfl (notSwap _ _ _ _)
    · exact ⟨manager, cause, now, earlier⟩
  refine ⟨by rw [same]; exact dominated.nonnegative, ?_, ?_, ?_⟩
  · intro record present
    rw [same]
    exact dominated.below record (recorded record present)
  · intro record present
    rw [same]
    exact dominated.sameOwner record (recorded record present)
  · rintro fence ⟨manager, now, record, inside, named⟩
    rw [same]
    rcases List.mem_cons.mp inside with rfl | earlier
    · exact absurd rfl (notSwap _ _ _ _)
    · exact dominated.released fence ⟨manager, now, record, earlier, named⟩

/-- A swap keeps the latest record dominant. -/
theorem Dominated.of_swap {now : Int} (dominated : Dominated older)
    (move : LeaseMove managers manager now cause (leaseOf older) record) :
    Dominated (.swap manager cause now record :: older) := by
  have latest : leaseOf (.swap manager cause now record :: older) = some record := rfl
  have raised := move.fence_le
  refine ⟨dominated.nonnegative.trans raised, ?_, ?_, ?_⟩
  · rintro other ⟨otherManager, otherCause, otherNow, inside⟩
    rw [latest, fenceOf_some]
    rcases List.mem_cons.mp inside with same | earlier
    · cases same
      exact le_refl _
    · exact (dominated.below other ⟨_, _, _, earlier⟩).trans raised
  · rintro other ⟨otherManager, otherCause, otherNow, inside⟩ owned sameFence
    rw [latest, fenceOf_some] at sameFence
    refine ⟨record, latest, ?_⟩
    rcases List.mem_cons.mp inside with same | earlier
    · cases same
      exact .inl rfl
    · have kept : record.fence = fenceOf (leaseOf older) :=
        le_antisymm (sameFence ▸ dominated.below other ⟨_, _, _, earlier⟩) raised
      obtain ⟨prior, before, held, owner⟩ := move.held_of_fence_eq kept
      obtain ⟨current, found, agrees⟩ :=
        dominated.sameOwner other ⟨_, _, _, earlier⟩ owned (sameFence.trans kept)
      rw [before] at found
      cases found
      rcases agrees with same | ownerless
      · rcases owner with keeps | gives
        · exact .inl (keeps.trans (held.symm.trans same))
        · exact .inr gives
      · exact absurd (held.symm.trans ownerless) (managers.owner_nonempty manager)
  · rintro fence ⟨otherManager, otherNow, other, inside, rfl⟩
    rw [latest, fenceOf_some]
    rcases List.mem_cons.mp inside with same | earlier
    · cases same
      generalize leaseOf older = old at move
      cases move with
      | released prior _ held owner fence => exact .inr ⟨record, rfl, owner, rfl⟩
    · rcases dominated.released _ ⟨_, _, other, earlier, rfl⟩ with below | ⟨current, found, free, same⟩
      · exact .inl (lt_of_lt_of_le below raised)
      · left
        rw [found, fenceOf_some] at raised
        rcases lt_or_eq_of_le raised with higher | equal
        · omega
        · obtain ⟨prior, before, held, _⟩ := move.held_of_fence_eq (by rw [found]; simp [equal])
          rw [found] at before
          cases before
          exact absurd (held.symm.trans free) (managers.owner_nonempty manager)

/-- In a lawful history the latest record dominates. -/
theorem LawfulHistory.dominated {history : List (Event ι υ)}
    (lawful : LawfulHistory managers history) : Dominated history := by
  induction history with
  | nil =>
    refine ⟨le_refl _, ?_, ?_, ?_⟩
    · rintro record ⟨_, _, _, inside⟩
      cases inside
    · rintro record ⟨_, _, _, inside⟩
      cases inside
    · rintro fence ⟨_, _, _, inside, _⟩
      cases inside
  | cons event older ih =>
    obtain ⟨admitted, rest⟩ := lawful
    cases event with
    | swap manager cause now record => exact (ih rest).of_swap admitted
    | fencedPut | fencedDelete => exact (ih rest).of_commit rfl (by simp)

/-- The term under which an event commits a write of its Manager. -/
def Event.term : Event ι υ → Option Int
  | .swap _ (.mutate fence _ _) _ _ => some fence
  | .swap _ .acquire _ _ => none
  | .swap _ .release _ _ => none
  | .fencedPut _ fence _ => some fence
  | .fencedDelete _ fence _ => some fence

/-- A commit under a term finds that term in place, with its owner. -/
theorem Admitted.term_in_place {event : Event ι υ} {fence : Int}
    (admitted : Admitted managers older event) (under : event.term = some fence) :
    ∃ record, leaseOf older = some record ∧ record.ownerId ≠ "" ∧ record.fence = fence := by
  cases event with
  | fencedPut | fencedDelete =>
    cases under
    obtain ⟨named, record, found, same, own⟩ := admitted
    exact ⟨record, found, same ▸ named, own⟩
  | swap manager cause now record =>
    cases cause with
    | acquire | release => cases under
    | mutate term name value =>
      cases under
      have move : LeaseMove managers manager now (.mutate fence name value) (leaseOf older)
        record := admitted
      generalize leaseOf older = lease at move
      cases move with
      | mutated _ _ _ prior _ held own live changed =>
        exact ⟨prior, rfl, held ▸ managers.owner_nonempty manager, own⟩

end Histories

/-! ## Runs -/

/-- The lease record has the fence of the history's latest swap, no fence belongs
to two owners, terms change hands only when free or expired, and no write commits
under a term that was released or surpassed. -/
structure LeaseSafe (history : List (Event ι υ)) : Prop where
  fence_le : ∀ newer older, history = newer ++ older →
    fenceOf (leaseOf older) ≤ fenceOf (leaseOf history)
  owner_eq : ∀ first second : LeaseRecord υ, Recorded first history → Recorded second history →
    first.ownerId ≠ "" → second.ownerId ≠ "" → first.fence = second.fence →
      first.ownerId = second.ownerId
  takeover : ∀ newer older manager cause now (prior record : LeaseRecord υ),
    history = newer ++ .swap manager cause now record :: older → leaseOf older = some prior →
      record.ownerId ≠ "" → prior.ownerId ≠ record.ownerId →
        record.ownerId = managers.ownerId manager ∧
          (prior.ownerId = "" ∨ prior.expired now = true)
  fenced : ∀ newer older event fence, history = newer ++ event :: older →
    event.term = some fence →
      ¬Released fence older ∧ ∀ record, Recorded record older → record.fence ≤ fence

theorem Recorded.append_left (recorded : Recorded record older) (newer : List (Event ι υ)) :
    Recorded record (newer ++ older) := by
  obtain ⟨manager, cause, now, inside⟩ := recorded
  exact ⟨manager, cause, now, List.mem_append_right newer inside⟩

/-- The record in place was recorded. -/
theorem recorded_of_leaseOf {history : List (Event ι υ)} (found : leaseOf history = some record) :
    Recorded record history := by
  induction history with
  | nil => cases found
  | cons event older ih =>
    cases event with
    | swap manager cause now swapped =>
      cases found
      exact ⟨manager, cause, now, List.mem_cons_self⟩
    | fencedPut | fencedDelete => exact (ih found).append_left [_]

section Safety

variable {managers : Managers ι} {history : List (Event ι υ)}

/-- Two records of one fence have one owner. Of two records, one was swapped in
later; it was dominant then, and the other had been recorded. -/
theorem LawfulHistory.owner_eq (lawful : LawfulHistory managers history)
    (first second : LeaseRecord υ) (firstRecorded : Recorded first history)
    (secondRecorded : Recorded second history) (firstOwned : first.ownerId ≠ "")
    (secondOwned : second.ownerId ≠ "") (sameFence : first.fence = second.fence) :
    first.ownerId = second.ownerId := by
  induction history with
  | nil =>
    obtain ⟨_, _, _, inside⟩ := firstRecorded
    cases inside
  | cons event older ih =>
    have dominated := lawful.dominated
    have latestEq : ∀ record other : LeaseRecord υ, leaseOf (event :: older) = some record →
        Recorded other (event :: older) → record.ownerId ≠ "" → other.ownerId ≠ "" →
          other.fence = record.fence → record.ownerId = other.ownerId := by
      intro record other latest recorded recordOwned otherOwned same
      obtain ⟨current, found, agrees⟩ :=
        dominated.sameOwner other recorded otherOwned (by rw [latest, fenceOf_some, same])
      rw [latest] at found
      cases found
      exact agrees.resolve_right recordOwned
    obtain ⟨firstManager, firstCause, firstNow, firstInside⟩ := firstRecorded
    obtain ⟨secondManager, secondCause, secondNow, secondInside⟩ := secondRecorded
    rcases List.mem_cons.mp firstInside with firstNewest | firstEarlier
    · refine latestEq first second ?_ ⟨_, _, _, secondInside⟩ firstOwned secondOwned sameFence.symm
      rw [← firstNewest]
      rfl
    · rcases List.mem_cons.mp secondInside with secondNewest | secondEarlier
      · refine (latestEq second first ?_ ⟨_, _, _, firstInside⟩ secondOwned firstOwned
          sameFence).symm
        rw [← secondNewest]
        rfl
      · exact ih lawful.2 ⟨_, _, _, firstEarlier⟩ ⟨_, _, _, secondEarlier⟩

/-- A lawful history is safe. -/
theorem LawfulHistory.safe (lawful : LawfulHistory managers history) :
    LeaseSafe managers history where
  fence_le := by
    rintro newer older rfl
    cases found : leaseOf older with
    | none =>
      rw [fenceOf_none]
      exact lawful.dominated.nonnegative
    | some record =>
      rw [fenceOf_some]
      exact lawful.dominated.below record ((recorded_of_leaseOf found).append_left newer)
  owner_eq first second := lawful.owner_eq first second
  takeover := by
    rintro newer older manager cause now prior record rfl before owned different
    have move : LeaseMove managers manager now cause (leaseOf older) record := (lawful.of_append).1
    rw [before] at move
    exact move.takeover owned different
  fenced := by
    rintro newer older event fence rfl under
    have suffix := lawful.of_append
    have dominated : Dominated older := suffix.2.dominated
    obtain ⟨record, found, owned, own⟩ := Admitted.term_in_place suffix.1 under
    refine ⟨?_, ?_⟩
    · intro released
      rcases dominated.released fence released with below | ⟨current, place, free, _⟩
      · rw [found, fenceOf_some, own] at below
        exact lt_irrefl _ below
      · rw [found] at place
        cases place
        exact owned free
    · intro other recorded
      have below := dominated.below other recorded
      rwa [found, fenceOf_some, own] at below

end Safety

/-! ## Calls in progress -/

/-- A swap in progress was planned from the record it read. -/
def Call.Planned (manager : ι) : Call υ → Prop
  | .acquireSwap now _ read record => acquireRecord managers manager now read = some record
  | .releaseSwap read record => ∃ fence, releaseRecord managers manager fence read = some record
  | .mutateSwap fence name value now _ read record =>
    mutateRecord managers manager fence now name value read = some record
  | _ => True

/-- The lease record is the one its lawful history left, and every swap in
progress was planned. -/
structure Sound (system : System ι υ) : Prop where
  lawful : LawfulHistory managers system.history
  lease : system.lease = leaseOf system.history
  planned : ∀ entry ∈ system.pending, entry.2.Planned managers entry.1

section Soundness

variable {managers : Managers ι} {system : System ι υ}

/-- A step of a sound system ends in one, and only adds to the history. -/
structure Follows (managers : Managers ι) (system next : System ι υ) : Prop where
  sound : Sound managers next
  grows : system.history <:+ next.history

section

variable (sound : Sound managers system)
include sound

/-- A step that commits nothing. -/
theorem Sound.quiet {next : System ι υ} (lease : next.lease = system.lease)
    (history : next.history = system.history)
    (planned : ∀ entry ∈ next.pending, entry.2.Planned managers entry.1) :
    Follows managers system next where
  sound := ⟨history ▸ sound.lawful, by rw [lease, history, sound.lease], planned⟩
  grows := history ▸ List.suffix_rfl

theorem Sound.resume (index : Nat) (manager : ι) (next : Progress υ)
    (planned : ∀ call, next = some call → call.Planned managers manager) :
    Follows managers system (system.resume index manager next) := by
  refine sound.quiet rfl rfl ?_
  cases next with
  | none => exact fun entry inside => sound.planned entry (List.mem_of_mem_eraseIdx inside)
  | some call =>
    intro entry inside
    rcases List.mem_or_eq_of_mem_set inside with kept | rfl
    · exact sound.planned entry kept
    · exact planned call rfl

variable [DecidableEq υ]

/-- A planned swap that commits is admitted, because the record it read is the
record in place. -/
theorem Sound.swap (index : Nat) (manager : ι) (cause : Cause υ) (now : Int)
    (read : Option (LeaseRecord υ)) (record : LeaseRecord υ) (won lost : Progress υ)
    (move : LeaseMove managers manager now cause read record)
    (wonPlanned : ∀ call, won = some call → call.Planned managers manager)
    (lostPlanned : ∀ call, lost = some call → call.Planned managers manager) :
    Follows managers system (system.swap index manager cause now read record won lost) := by
  unfold System.swap
  split
  · next same =>
    have resumed := (sound.resume index manager won wonPlanned).sound.planned
    rw [← same, sound.lease] at move
    exact ⟨⟨⟨move, sound.lawful⟩, rfl, resumed⟩, List.suffix_cons ..⟩
  · exact sound.resume index manager lost lostPlanned

variable [DecidableEq ι]

theorem Sound.advance (index : Nat) :
    Follows managers system (system.advance managers index) := by
  unfold System.advance
  split
  · exact sound.quiet rfl rfl sound.planned
  · next manager call waiting =>
    have planned : call.Planned managers manager :=
      sound.planned (manager, call) (List.mem_of_getElem? waiting)
    split
    · exact sound.resume _ _ _ (by rintro _ ⟨⟩; trivial)
    · split
      · exact sound.resume _ _ _ (by rintro _ ⟨⟩; trivial)
      · next record takes => exact sound.resume _ _ _ (by rintro _ ⟨⟩; exact takes)
    · exact sound.swap _ _ _ _ _ _ _ _ (acquireRecord_move planned) (by rintro _ ⟨⟩; trivial)
        (by rintro _ ⟨⟩; trivial)
    · exact sound.resume _ _ _ (by rintro _ ⟨⟩; trivial)
    · split
      · exact sound.resume _ _ _ (by rintro _ ⟨⟩; trivial)
      · next record gives => exact sound.resume _ _ _ (by rintro _ ⟨⟩; exact ⟨_, gives⟩)
    · obtain ⟨fence, gives⟩ := planned
      exact sound.swap _ _ _ _ _ _ _ _ (releaseRecord_move gives) (by rintro _ ⟨⟩; trivial)
        (by rintro _ ⟨⟩; trivial)
    · split
      · exact sound.resume _ _ _ (by rintro _ ⟨⟩; trivial)
      · split
        · exact sound.resume _ _ _ (by rintro _ ⟨⟩)
        · exact sound.resume _ _ _ (by rintro _ ⟨⟩; trivial)
    · exact sound.resume _ _ _ (by rintro _ ⟨⟩)
    · exact sound.resume _ _ _ (by rintro _ ⟨⟩; trivial)
    · dsimp only
      split
      · exact sound.resume _ _ _ (by rintro _ ⟨⟩; trivial)
      · next record changes => exact sound.resume _ _ _ (by rintro _ ⟨⟩; exact changes)
    · exact sound.swap _ _ _ _ _ _ _ _ (mutateRecord_move planned) (by rintro _ ⟨⟩)
        (by rintro _ ⟨⟩; trivial)
    · have dropped := sound.resume index manager none (by rintro _ ⟨⟩)
      exact sound.quiet rfl rfl dropped.sound.planned

theorem Sound.step (action : Action ι υ) :
    Follows managers system (system.step managers action) := by
  cases action with
  | begin manager request =>
    refine sound.quiet rfl rfl ?_
    intro entry inside
    rcases List.mem_cons.mp inside with rfl | earlier
    · cases request <;> trivial
    · exact sound.planned entry earlier
  | advance index => exact sound.advance index
  | abandon index =>
    exact sound.quiet rfl rfl
      fun entry inside => sound.planned entry (List.mem_of_mem_eraseIdx inside)
  | fencedPut owner fence now key data | fencedDelete owner fence now key =>
    simp only [System.step]
    split
    · next accepted =>
      rw [sound.lease] at accepted
      have admitted := fenceMatches_true accepted
      exact ⟨⟨⟨⟨owner.2, admitted⟩, sound.lawful⟩, sound.lease, sound.planned⟩,
        List.suffix_cons ..⟩
    · exact sound.quiet rfl rfl sound.planned

theorem Sound.run (actions : List (Action ι υ)) :
    Follows managers system (actions.foldl (.step managers) system) := by
  induction actions generalizing system with
  | nil => exact sound.quiet rfl rfl sound.planned
  | cons action rest ih =>
    have first := sound.step action
    have later := ih first.sound
    exact ⟨later.sound, first.grows.trans later.grows⟩

end

variable [DecidableEq υ] [DecidableEq ι]

theorem run_sound (actions : List (Action ι υ)) : Sound managers (run managers actions) := by
  have empty : Sound managers ({} : System ι υ) := ⟨trivial, rfl, by simp⟩
  exact (empty.run actions).sound

/-- Over any number of Managers, any interleaving of their calls and any clocks:
the fence of the lease record never decreases, no fence is ever recorded for two
owners, a term passes to another owner only when it is free or expired at the
taker's clock, and once a term was released or a higher fence recorded nothing
commits under it any more. -/
theorem run_leaseSafe (managers : Managers ι) (actions later : List (Action ι υ)) :
    fenceOf (run managers actions).lease ≤ fenceOf (run managers (actions ++ later)).lease ∧
      LeaseSafe managers (run managers actions).history := by
  have sound : Sound managers (run managers actions) := run_sound actions
  have soundLater : Sound managers (run managers (actions ++ later)) := run_sound (actions ++ later)
  refine ⟨?_, sound.lawful.safe⟩
  obtain ⟨fresh, grown⟩ := (sound.run later).grows
  rw [sound.lease, soundLater.lease]
  refine soundLater.lawful.safe.fence_le fresh _ ?_
  rw [grown, run, run, List.foldl_append]

end Soundness

end ShortcutProxy.LeaderLease
