import ShortcutProxy.Coordinator
import ShortcutProxy.LeaderLease
import ShortcutProxy.QueueOperations

/-!
# Publishing a snapshot under two fences

`publish_snapshot` checks a request and its outputs, and then makes the snapshot
record visible. Two things may change between the check and the write: the
generation coordinator may install another record, and the Manager may lose its
lease. This module lets both happen at any point. Managers, generation
coordinators and publications are advanced one store access at a time, in any
order, and every clock reading is an argument.

With a coordinator record in place the two records of a publication are written
as one batch, which the store commits only under a live Manager term and an
unchanged coordinator record. Without one they are written one after the other,
each under its own check of the Manager term and neither under a check that
there is still no coordinator record.
-/
namespace ShortcutProxy.SnapshotPublication

open Contract Generation LeaderLease Records WorkQueue

/-- The write that a publication validates its Manager term for. -/
inductive Stage where
  | batch
  | snapshot
  | request
  deriving DecidableEq, Repr

/-- A publication by the access it makes next. `enter` reads the fence that the
Manager keeps in memory, `validate` reads the lease record, and `confirm` reads
the snapshot record back after it was written alone. -/
inductive Phase where
  | request
  | generation (request : RequestRecord)
  | outputs (request : RequestRecord) (guard : Option GenerationRecord)
  | enter (publication : Publication) (stage : Stage)
  | validate (publication : Publication) (stage : Stage) (fence : Int)
  | write (publication : Publication) (stage : Stage) (owner : String) (fence : Int)
  | confirm (publication : Publication) (attempts : Nat)

/-- A call of `publish_snapshot`. Its clock is read once, on entry. -/
structure PublishCall (ι : Type) where
  manager : ι
  requestId : String
  manifest : SnapshotManifest
  now : Int

/-- The shared store with everything that runs over it. The lease record is part
of the lease system; all other records are in the store. -/
structure Site (ι υ : Type) where
  leases : LeaderLease.System ι υ := {}
  store : Store := {}
  coordinators : List CoordinatorCall := []
  publications : List (PublishCall ι × Phase) := []

variable {ι υ : Type}

/-- What one access of a publication does. -/
structure Outcome where
  store : Store
  stale : Bool := false
  next : Option Phase

/-- The write a prepared publication starts with. -/
def firstStage (publication : Publication) : Stage :=
  if publication.guard.isSome then .batch else .snapshot

/-- `_guarded_write_batch` and `_write`, once a term was validated. -/
def writeStage (lease : Option (LeaseRecord υ)) (store : Store) (requestId : String)
    (publication : Publication) (owner : String) (fence clock : Int) : Stage → Outcome
  | .batch =>
    if fenceMatches lease owner fence clock ∧ store.coordinator = publication.guard then
      { store := (store.apply (.snapshot publication.snapshotKey publication.manifest)).apply
          (.request requestId (some publication.request))
        next := none }
    else { store := store, next := none }
  | .snapshot =>
    if fenceMatches lease owner fence clock then
      { store := store.apply (.snapshot publication.snapshotKey publication.manifest)
        next := some (.confirm publication 5) }
    else { store := store, next := none }
  | .request =>
    if fenceMatches lease owner fence clock then
      { store := store.apply (.request requestId (some publication.request)), next := none }
    else { store := store, next := none }

variable (env : Environment) (managers : Managers ι)

/-- `LeaderLease.validate` without arguments, for a fence read before. -/
def validated (manager : ι) (lease : Option (LeaseRecord υ))
    (fence clock : Int) : Option (LeaseRecord υ) :=
  lease.filter fun record =>
    record.ownerId = managers.ownerId manager ∧ record.fence = fence ∧ !record.expired clock

/-- One access of `publish_snapshot`. A failed check ends the call. -/
def PublishCall.advance (leases : LeaderLease.System ι υ) (store : Store) (clock : Int)
    (call : PublishCall ι) :
    Phase → Outcome
  | .request =>
    { store := store
      next := (publishableRequest call.requestId call.manifest store).toOption.map .generation }
  | .generation request =>
    { store := store
      next := (publishableGeneration env call.manifest call.now store).toOption.map
        (.outputs request) }
  | .outputs request guard =>
    { store := store
      next := (checkOutputs env store request call.manifest).toOption.map fun datasetId =>
        let publication := publicationOf request call.manifest call.now guard datasetId
        .enter publication (firstStage publication) }
  | .enter publication stage =>
    { store := store
      next := some (.validate publication stage (leases.locals call.manager).fence) }
  | .validate publication stage fence =>
    match validated managers call.manager leases.lease fence clock with
    | none => { store := store, stale := true, next := none }
    | some record =>
      { store := store, next := some (.write publication stage record.ownerId record.fence) }
  | .write publication stage owner fence =>
    writeStage leases.lease store call.requestId publication owner fence clock stage
  | .confirm _ 0 => { store := store, next := none }
  | .confirm publication (attempts + 1) =>
    { store := store
      next := if store.snapshots[publication.snapshotKey]? = some publication.manifest then
          some (.enter publication .request)
        else some (.confirm publication attempts) }

/-- One event of the whole system. -/
inductive Action (ι υ : Type) where
  | lease (action : LeaderLease.Action ι υ)
  | coordinate (call : CoordinatorCall)
  | advanceCoordinator (index : Nat) (clock : Int)
  | abandonCoordinator (index : Nat)
  | publish (manager : ι) (requestId : String) (manifest : SnapshotManifest) (now : Int)
  | advance (index : Nat) (clock : Int)
  | abandon (index : Nat)

section Steps

variable [DecidableEq ι] [DecidableEq υ]

/-- The state after one event. A stale term leaves the Manager's `_lose` to run. -/
def Site.step (env : Environment) (managers : Managers ι) (site : Site ι υ) :
    Action ι υ → Site ι υ
  | .lease action => { site with leases := site.leases.step managers action }
  | .coordinate call => { site with coordinators := call :: site.coordinators }
  | .advanceCoordinator index clock =>
    match site.coordinators[index]? with
    | none => site
    | some call =>
      let advanced := call.advance env.planDigest clock site.store.coordinator
      { site with
        store := site.store.apply (.coordinator advanced.1)
        coordinators := continueAt site.coordinators index advanced.2 }
  | .abandonCoordinator index =>
    { site with coordinators := site.coordinators.eraseIdx index }
  | .publish manager requestId manifest now =>
    { site with
      publications := (⟨manager, requestId, manifest, now⟩, .request) :: site.publications }
  | .advance index clock =>
    match site.publications[index]? with
    | none => site
    | some (call, phase) =>
      let outcome := call.advance env managers site.leases site.store clock phase
      { site with
        leases := if outcome.stale then
            { site.leases with
              pending := (call.manager, .conclude lost) :: site.leases.pending }
          else site.leases
        store := outcome.store
        publications := continueAt site.publications index
          (outcome.next.map (.mk call)) }
  | .abandon index => { site with publications := site.publications.eraseIdx index }

/-- The state after a list of events. -/
def run (env : Environment) (managers : Managers ι) (site : Site ι υ)
    (actions : List (Action ι υ)) : Site ι υ :=
  actions.foldl (.step env managers) site

end Steps

/-! ## What a visible snapshot has behind it -/

/-- A publication that one step committed: both of its records, and nothing else
of the two tables, were written in that step; the coordinator held the manifest's
generation, not yet expired at the publisher's clock; and the lease record held
the publishing Manager's live term. -/
structure Committed (before after : Site ι υ) (call : PublishCall ι) (clock : Int)
    (manifest : SnapshotManifest) (request : RequestRecord) :
    Prop where
  snapshots : after.store.snapshots =
    assign before.store.snapshots ⟨manifest.table, manifest.epoch⟩ (some manifest)
  requests : after.store.requests =
    assign before.store.requests manifest.requestId (some request)
  succeeded : request.state = .succeeded
  published : request.published = true ∧
    request.snapshotKey = some ⟨manifest.table, manifest.epoch⟩
  identity : manifestMatches manifest.requestId request manifest = true
  generation : ∃ record context, before.store.coordinator = some record ∧
    after.store.coordinator = some record ∧ toContext env.planDigest record = some context ∧
    generationActive context manifest call.now = true
  leader : ∃ lease, before.leases.lease = some lease ∧
    lease.ownerId = managers.ownerId call.manager ∧
    fenceMatches before.leases.lease (managers.ownerId call.manager) lease.fence clock = true

/-- A step either leaves the requests and the snapshots alone or commits one
publication that was in progress. -/
def PublishesTogether (before : Site ι υ) (action : Action ι υ) (after : Site ι υ) : Prop :=
  (after.store.snapshots = before.store.snapshots ∧ after.store.requests = before.store.requests) ∨
    ∃ index clock call phase manifest request, action = .advance index clock ∧
      before.publications[index]? = some (call, phase) ∧
      Committed env managers before after call clock manifest request

/-- If this event is a publication reading the coordinator record, there is one. -/
def readsCoordinator (site : Site ι υ) : Action ι υ → Bool
  | .advance index _ =>
    match site.publications[index]? with
    | some (_, .generation _) => site.store.coordinator.isSome
    | _ => true
  | _ => true

/-! ## Publications in progress -/

/-- What a publication has established of its request and of the coordinator
record it will guard its batch with. -/
structure Checked (call : PublishCall ι) (request : RequestRecord)
    (record : GenerationRecord) : Prop where
  succeeded : request.state = .succeeded
  identity : manifestMatches call.requestId request call.manifest = true
  active : ∃ context, toContext env.planDigest record = some context ∧
    generationActive context call.manifest call.now = true

/-- The prepared records come from checked ones and are to be written as a batch. -/
def Prepared (call : PublishCall ι) (publication : Publication) (stage : Stage) : Prop :=
  stage = .batch ∧ ∃ request record datasetId,
    publication = publicationOf request call.manifest call.now (some record) datasetId ∧
      Checked env call request record

/-- The invariant of a publication that found a coordinator record. -/
def Planned (call : PublishCall ι) : Phase → Prop
  | .request => True
  | .generation request => request.state = .succeeded ∧
      manifestMatches call.requestId request call.manifest = true
  | .outputs request guard => ∃ record, guard = some record ∧ Checked env call request record
  | .enter publication stage => Prepared env call publication stage
  | .validate publication stage _ => Prepared env call publication stage
  | .write publication stage owner _ =>
    Prepared env call publication stage ∧ owner = managers.ownerId call.manager
  | .confirm _ _ => False

/-- A coordinator record that lets a manifest pass is the one it was checked on. -/
theorem publishableGeneration_some {env : Environment} {manifest : SnapshotManifest} {now : Int}
    {store : Store} {record : GenerationRecord} {guard : Option GenerationRecord}
    (stored : store.coordinator = some record)
    (passed : publishableGeneration env manifest now store = .ok guard) :
    guard = some record ∧ ∃ context, toContext env.planDigest record = some context ∧
      generationActive context manifest now = true := by
  simp only [publishableGeneration, currentGeneration, stored] at passed
  cases parsed : toContext env.planDigest record with
  | none => simp [parsed] at passed
  | some context =>
    rw [parsed] at passed
    cases active : generationActive context manifest now with
    | false => simp [active] at passed
    | true =>
      simp only [Option.any_some, active, Bool.not_true, Bool.false_eq_true, if_false] at passed
      exact ⟨(Except.ok.inj passed).symm, context, rfl, active⟩

/-- An `Except` computation that leaves a value succeeded with it. -/
theorem eq_ok_of_toOption {ε α : Type} {result : Except ε α} {value : α}
    (kept : result.toOption = some value) : result = .ok value := by
  cases result with
  | error error => cases kept
  | ok found => exact congrArg Except.ok (Option.some.inj kept)

/-- A publication that finds a coordinator record keeps its invariant. -/
theorem Planned.advance {env : Environment} {managers : Managers ι}
    {leases : LeaderLease.System ι υ} {store : Store} {clock : Int} {call : PublishCall ι}
    {phase next : Phase} (planned : Planned env managers call phase)
    (found : ∀ request, phase = .generation request → store.coordinator.isSome = true)
    (continued : (call.advance env managers leases store clock phase).next = some next) :
    Planned env managers call next := by
  cases phase with
  | request =>
    obtain ⟨request, passed, rfl⟩ := Option.map_eq_some_iff.mp continued
    obtain ⟨_, succeeded, identity⟩ := publishableRequest_ok (eq_ok_of_toOption passed)
    exact ⟨succeeded, identity⟩
  | generation request =>
    obtain ⟨record, stored⟩ := Option.isSome_iff_exists.mp (found request rfl)
    obtain ⟨guard, passed, rfl⟩ := Option.map_eq_some_iff.mp continued
    obtain ⟨rfl, active⟩ := publishableGeneration_some stored (eq_ok_of_toOption passed)
    exact ⟨record, rfl, planned.1, planned.2, active⟩
  | outputs request guard =>
    obtain ⟨record, rfl, checked⟩ := planned
    obtain ⟨datasetId, _, rfl⟩ := Option.map_eq_some_iff.mp continued
    exact ⟨rfl, request, record, datasetId, rfl, checked⟩
  | enter publication stage =>
    cases continued
    exact planned
  | validate publication stage fence =>
    simp only [PublishCall.advance] at continued
    split at continued
    · cases continued
    · next record passed =>
      cases continued
      obtain ⟨_, matching⟩ := Option.filter_eq_some_iff.mp passed
      simp only [Bool.decide_and, Bool.and_eq_true, decide_eq_true_eq] at matching
      exact ⟨planned, matching.1⟩
  | write publication stage owner fence =>
    obtain ⟨⟨rfl, _⟩, _⟩ := planned
    simp only [PublishCall.advance, writeStage] at continued
    split at continued <;> cases continued
  | confirm publication attempts => exact planned.elim

/-- One access of a publication leaves the store alone or commits both records. -/
theorem Planned.committed {env : Environment} {managers : Managers ι} {call : PublishCall ι}
    {phase : Phase} (planned : Planned env managers call phase) (before after : Site ι υ)
    (clock : Int)
    (written : after.store =
      (call.advance env managers before.leases before.store clock phase).store) :
    after.store = before.store ∨
      ∃ manifest request, Committed env managers before after call clock manifest request := by
  cases phase with
  | request | generation | outputs | enter => exact .inl written
  | validate publication stage fence =>
    simp only [PublishCall.advance] at written
    split at written <;> exact .inl written
  | write publication stage owner fence =>
    obtain ⟨⟨rfl, request, record, datasetId, rfl, checked⟩, rfl⟩ := planned
    simp only [PublishCall.advance, writeStage] at written
    split at written
    · next admitted =>
      obtain ⟨lease, held, owned, current⟩ := fenceMatches_true admitted.1
      obtain ⟨context, parsed, active⟩ := checked.active
      have named : call.manifest.requestId = call.requestId := by
        have identity := checked.identity
        simp only [manifestMatches, Bool.decide_and, Bool.and_eq_true, decide_eq_true_eq]
          at identity
        exact identity.1
      refine .inr ⟨(publicationOf request call.manifest call.now (some record) datasetId).manifest,
        (publicationOf request call.manifest call.now (some record) datasetId).request, ?_⟩
      exact
        { snapshots := by rw [written]; rfl
          requests := by rw [written]; simp only [publicationOf, named]; rfl
          succeeded := checked.succeeded
          published := ⟨rfl, rfl⟩
          identity := by
            have identity := checked.identity
            rw [← named] at identity
            exact identity
          generation := ⟨record, context, admitted.2, by rw [written]; exact admitted.2,
            parsed, active⟩
          leader := ⟨lease, held, owned, by rw [current]; exact admitted.1⟩ }
    · exact .inl written
  | confirm publication attempts => exact planned.elim

/-! ## Runs -/

/-- Every publication in progress found a coordinator record if it looked. -/
def AllPlanned (site : Site ι υ) : Prop :=
  ∀ pending ∈ site.publications, Planned env managers pending.1 pending.2

variable [DecidableEq ι] [DecidableEq υ]

/-- A step of a coordinated run keeps every publication planned and publishes
nothing in part. -/
theorem AllPlanned.step {env : Environment} {managers : Managers ι} {site : Site ι υ}
    (planned : AllPlanned env managers site) (action : Action ι υ)
    (reads : readsCoordinator site action = true) :
    AllPlanned env managers (site.step env managers action) ∧
      PublishesTogether env managers site action (site.step env managers action) := by
  cases action with
  | lease | coordinate | abandonCoordinator => exact ⟨planned, .inl ⟨rfl, rfl⟩⟩
  | advanceCoordinator index clock =>
    simp only [Site.step]
    split
    · exact ⟨planned, .inl ⟨rfl, rfl⟩⟩
    · exact ⟨planned, .inl ⟨rfl, rfl⟩⟩
  | publish manager requestId manifest now =>
    refine ⟨?_, .inl ⟨rfl, rfl⟩⟩
    intro pending member
    rcases List.mem_cons.mp member with rfl | earlier
    · trivial
    · exact planned pending earlier
  | advance index clock =>
    cases pending : site.publications[index]? with
    | none =>
      have same : site.step env managers (.advance index clock) = site := by
        simp only [Site.step, pending]
      rw [same]
      exact ⟨planned, .inl ⟨rfl, rfl⟩⟩
    | some entry =>
      obtain ⟨call, phase⟩ := entry
      have current := planned _ (List.mem_of_getElem? pending)
      have written : (site.step env managers (.advance index clock)).store =
          (call.advance env managers site.leases site.store clock phase).store := by
        simp only [Site.step, pending]
      refine ⟨?_, ?_⟩
      · intro continued member
        simp only [Site.step, pending] at member
        rcases mem_continueAt member with next | earlier
        · obtain ⟨later, went, rfl⟩ := Option.map_eq_some_iff.mp next
          refine current.advance ?_ went
          rintro request rfl
          simpa only [readsCoordinator, pending] using reads
        · exact planned continued earlier
      · rcases current.committed site _ clock written with unchanged | ⟨_, _, committed⟩
        · exact .inl ⟨congrArg Store.snapshots unchanged, congrArg Store.requests unchanged⟩
        · exact .inr ⟨index, clock, call, phase, _, _, rfl, pending, committed⟩
  | abandon index =>
    refine ⟨?_, .inl ⟨rfl, rfl⟩⟩
    intro pending member
    exact planned pending (List.mem_of_mem_eraseIdx member)

/-- Two Managers with leases of one second. -/
def twoManagers : Managers Bool where
  ownerId := fun second => if second then "manager-b" else "manager-a"
  ttlMs := fun _ => 1000
  owner_nonempty := by decide
  ttl_positive := by decide

/-- The publication makes some of its accesses. -/
def proceed (accesses : Nat) (clock : Int) : List (Action Bool Unit) :=
  .replicate accesses (.advance 0 clock)

end ShortcutProxy.SnapshotPublication
