import ShortcutProxy.OpenMirror

/-!
# What publishing a table touches

A call on a table reads and writes the state file of the table and the payload file beside
it, writes metadata, and lands data files. It lands them in the folder of the table, or where
a pending batch that it found was reserved. With `dry_run` the reads are all that remains
once no pending batch has to be settled.
-/

namespace ShortcutProxy.OpenMirror

open Journaled Records

/-- Where a call may go: the folders it may land in, and the payloads it may touch. -/
structure Scope where
  lands : String → Prop
  payloads : String → Prop

/-- The scope admits the folder of the table and the payload beside its state. -/
structure Scope.Covers (scope : Scope) (publication : Publication) : Prop where
  folder : ∀ folder, publication.folder = some folder → scope.lands folder
  payload : scope.payloads publication.payloadName

/-- The scope that admits everything. -/
def Scope.all : Scope := ⟨fun _ => True, fun _ => True⟩

theorem Scope.covers_all (publication : Publication) : Scope.all.Covers publication :=
  ⟨fun _ _ => trivial, trivial⟩

variable {kind : Access → Prop}

section Own

variable (publication : Publication) (scope : Scope)

/-- A pending batch belongs to the scope, by its payload and by its data file. -/
def OwnPending (state : PublishState) : Prop :=
  ∀ pending, state.pending = some pending →
    (∀ path, pending.payloadPath = some path → scope.payloads path) ∧
      scope.lands pending.path.folder

/-- The accesses that a call on the table makes. -/
def Own : Access → Prop
  | .readState name => name = publication.stateName ∨ scope.payloads name
  | .wroteState name file =>
    (name = publication.stateName ∧
      ∃ record, file = .state record ∧ OwnPending scope record) ∨
    (scope.payloads name ∧ ∃ payload, file = .payload payload)
  | .removedState name => scope.payloads name
  | .landed path _ => scope.lands path.folder
  | .wroteMetadata _ => True
  | .removedTree _ => False

/-- The accesses that publishing new rows makes: none in a dry run. -/
def Published (effect : Access) : Prop :=
  publication.call.dryRun = false ∧ Own publication scope effect

variable {publication scope}

theorem makes_checkLeadership (call : PublishCall) (place : Checkpoint) :
    Makes .apply kind (fun _ => True) (checkLeadership call place) :=
  .ite (fun _ => .pure trivial) fun _ => .raise _

variable {state : PublishState}

theorem makes_saveState (own : OwnPending scope state) :
    Makes .apply (Own publication scope) (fun _ => True)
      (saveState publication.stateName state) :=
  .perform (.inl ⟨rfl, state, rfl, own⟩)

theorem ownPending_none (settled : state.pending = none) : OwnPending scope state := by
  intro pending found
  rw [settled] at found
  cases found

theorem makes_finalizePending (own : OwnPending scope state) :
    Makes .apply (Own publication scope) (fun next => next.pending = none)
      (finalizePending publication.stateName state) := by
  unfold finalizePending
  split
  · next settled => exact .pure settled
  · next pending found =>
    refine .andThen (makes_saveState (ownPending_none rfl)) fun _ =>
      .andThen ?_ fun _ => .pure rfl
    cases recorded : pending.payloadPath with
    | none => exact .pure trivial
    | some path => exact .perform ((own pending found).1 path recorded)

theorem makes_writeBatchAt (call : PublishCall) {path : BatchPath}
    (admitted : scope.lands path.folder)
    (payload : Payload) :
    Makes .apply (Own publication scope) (fun _ => True) (writeBatchAt call path payload) :=
  .andThen (.perform admitted) fun _ =>
    .ite (fun _ => .pure trivial) fun _ => .raise _

theorem makes_landPending (number : Nat) {path : BatchPath} (admitted : scope.lands path.folder)
    (payload : Payload) (own : OwnPending scope state) :
    Makes .apply (Own publication scope) (fun next => next.pending = none)
      (landPending publication number path payload state) :=
  .andThen (makes_checkLeadership _ _) fun _ =>
    .andThen (makes_writeBatchAt _ admitted payload) fun _ =>
      .andThen (makes_checkLeadership _ _) fun _ => makes_finalizePending own

theorem makes_folderOf :
    Makes .apply kind (fun folder => publication.folder = some folder)
      publication.folderOf := by
  unfold Publication.folderOf
  split
  · next found => exact .pure found
  · exact .raise _

theorem makes_ensureMetadata :
    Makes .apply (Own publication scope) (fun folder => publication.folder = some folder)
      (ensureMetadata publication) := by
  refine .andThen (.perform trivial) fun _ => .bind makes_folderOf fun folder own => ?_
  refine .andThen (.read _) fun present => ?_
  refine .ite (fun _ => .pure own) fun _ => ?_
  refine .ite (fun _ => .raise _) fun _ => ?_
  exact .andThen (.perform trivial) fun _ => .pure own

theorem makes_reserveBatchPath (folder : String) :
    Makes .apply kind (fun path => path.folder = folder) (reserveBatchPath folder) :=
  .andThen (.read _) fun _ =>
    .ite (fun _ => .pure rfl) fun _ => .raise _

variable (covers : scope.Covers publication)

include covers in
theorem makes_savePending (projection : Projection) (number : Nat) (state : PublishState)
    {batch : PendingBatch} (admitted : scope.lands batch.path.folder) (payload : Payload) :
    Makes .apply (Own publication scope) (OwnPending scope)
      (savePending publication projection number state batch payload) := by
  have own : OwnPending scope { state with pending := some { batch with
      payloadPath := if projection.randomTokens then some publication.payloadName else none } } := by
    rintro pending ⟨⟩
    refine ⟨?_, admitted⟩
    intro path recorded
    dsimp only at recorded
    split at recorded
    · exact Option.some.inj recorded ▸ covers.payload
    · cases recorded
  refine .andThen ?_ fun _ => .andThen (makes_checkLeadership _ _) fun _ =>
    .andThen (makes_saveState own) fun _ => .pure own
  split
  · exact .perform (.inr ⟨covers.payload, payload, rfl⟩)
  · exact .pure trivial

include covers in
theorem makes_landPage (projection : Projection) (loop : WatermarkLoop)
    (own : OwnPending scope loop.state) (rows : List Row) (next : Cursor) :
    Makes .apply (Own publication scope) (fun after => after.state.pending = none)
      (landPage publication projection loop rows next) := by
  refine .andThen (makes_checkLeadership _ _) fun _ =>
    .bind makes_ensureMetadata fun folder found => ?_
  dsimp only
  split
  · next pending recorded =>
    refine .ite (fun _ => .raise _) fun _ => ?_
    exact .bind (makes_landPending _ (own pending recorded).2 _ own)
      fun state settled => .pure settled
  · refine .bind (makes_reserveBatchPath folder) fun path reserved => ?_
    have admitted : scope.lands path.folder := reserved ▸ covers.folder folder found
    refine .bind (makes_savePending covers projection _ _ admitted _) fun saved pendingOwn => ?_
    exact .bind (makes_landPending _ admitted _ pendingOwn)
      fun state settled => .pure settled

include covers in
theorem makes_watermarkLoop (source : Source) (projection : Projection) (watermarkColumn : String)
    (pageSize fuel : Nat) {loop : WatermarkLoop} (own : OwnPending scope loop.state) :
    Makes .apply (Published publication scope) (fun _ => True)
      (watermarkLoop publication source projection watermarkColumn pageSize fuel loop) := by
  induction fuel generalizing loop with
  | zero => exact .raise _
  | succ fuel ih =>
    refine .andThen (.ofExcept fun _ _ => trivial) fun content => ?_
    dsimp only
    split
    · refine .ite (fun wet => ?_) fun _ => .pure trivial
      refine .andThen (makes_checkLeadership _ _) fun _ => .andThen
        ((makes_saveState ?_).widen fun _ => .intro wet.2) fun _ => .pure trivial
      exact own
    · refine .andThen (.ofExcept fun _ _ => trivial) fun next =>
        .andThen ?_ fun landed => ?_
      · refine .ite (fun _ => .pure trivial) fun wet => ?_
        refine .mono (fun _ _ => trivial)
          ((makes_landPage covers projection _ ?_ _ next).widen fun _ =>
            .intro (Bool.eq_false_of_not_eq_true wet))
        exact own
      · refine .ite (fun _ => .pure trivial) fun _ => ?_
        refine .ite (fun _ => .pure trivial) fun _ => ?_
        refine .ite (fun _ => .pure trivial) fun _ => ?_
        exact ih (ownPending_none rfl)

include covers in

include covers in
theorem makes_commitSnapshot (projection : Projection) {folder : String}
    (found : publication.folder = some folder) (batch : Payload × List (String × KeyEntry))
    (own : OwnPending scope state) :
    Makes .apply (Own publication scope) (fun settled => settled.1.pending = none)
      (commitSnapshot publication projection folder batch state) := by
  unfold commitSnapshot
  dsimp only
  split
  · next pending recorded =>
    refine .ite (fun _ => .raise _) fun _ => ?_
    exact .bind (makes_landPending _ (own pending recorded).2 _ own)
      fun state settled => .pure settled
  · refine .bind (makes_reserveBatchPath folder) fun path reserved => ?_
    have admitted : scope.lands path.folder := reserved ▸ covers.folder folder found
    refine .bind (makes_savePending covers projection _ _ admitted _) fun saved pendingOwn => ?_
    exact .bind (makes_landPending _ admitted _ pendingOwn)
      fun state settled => .pure settled

include covers in
theorem makes_publishSnapshot (source : Source) (projection : Projection)
    (own : OwnPending scope state) :
    Makes .apply (Published publication scope) (fun _ => True)
      (publishSnapshot publication source projection state) := by
  refine .andThen (.ofExcept fun _ _ => trivial) fun content => ?_
  refine .ite (fun _ => .pure trivial) fun wet => ?_
  refine .ite (fun _ => .pure trivial) fun _ => ?_
  refine .widen (fun _ => .intro (Bool.eq_false_of_not_eq_true wet)) ?_
  refine .andThen (makes_checkLeadership _ _) fun _ =>
    .bind makes_ensureMetadata fun folder found =>
      .bind (makes_commitSnapshot covers projection found _ own) fun committed settled => ?_
  exact .andThen (makes_saveState (ownPending_none settled)) fun _ => .pure trivial

theorem makes_settleFrom (own : OwnPending scope state) {pending : PendingBatch}
    (recorded : state.pending = some pending) (path : String) (file : Option StateFile) :
    Makes .apply (Own publication scope) (fun _ => True)
      (settleFrom publication state pending path file) := by
  unfold settleFrom
  split
  · exact .pure trivial
  · refine .ite (fun _ => .raise _) fun _ => ?_
    split
    · refine .ite (fun _ => .raise _) fun _ => ?_
      exact .andThen (makes_checkLeadership _ _) fun _ =>
        .andThen (makes_writeBatchAt _ (own pending recorded).2 _) fun _ =>
          .andThen (makes_checkLeadership _ _) fun _ =>
            .bind (makes_finalizePending own) fun _ _ => .pure trivial
    · exact .raise _

theorem makes_settlePending (own : OwnPending scope state) :
    Makes .apply (Own publication scope) (fun _ => True)
      (settlePending publication state) := by
  unfold settlePending
  split
  · exact .pure trivial
  · next pending recorded =>
    refine .andThen (.read _) fun landed => .ite (fun _ => ?_) fun _ => ?_
    · exact .andThen (makes_checkLeadership _ _) fun _ =>
        .bind (makes_finalizePending own) fun _ _ => .pure trivial
    · split
      · exact .pure trivial
      · next path prepared =>
        have reads := (own pending recorded).1 path prepared
        exact .andThen (.perform (.inr reads)) fun _ =>
          .andThen (.read _) fun file => makes_settleFrom own recorded path file

include covers in
theorem makes_publishFresh (source : Source) (mode : Mode) {loaded : Option PublishState}
    (own : ∀ state, loaded = some state → OwnPending scope state) :
    Makes .apply (Published publication scope) (fun _ => True)
      (publishFresh publication source mode loaded) := by
  have start : OwnPending scope (startingState publication.table mode loaded) := by
    unfold startingState
    split
    · exact ownPending_none rfl
    · next state =>
      split
      · exact ownPending_none rfl
      · exact own state rfl
  refine .andThen (.ofExcept fun _ _ => trivial) fun projection => ?_
  refine .ite (fun _ => .raise _) fun _ => .ite (fun _ => ?_) fun _ => ?_
  · unfold publishWatermark
    dsimp only
    split
    · exact .raise _
    · refine .ite (fun _ => .raise _) fun _ => .ite (fun _ => .raise _) fun _ => ?_
      exact .andThen (makes_watermarkLoop covers source projection _ _ _ start)
        fun _ => .pure trivial
  · exact makes_publishSnapshot covers source projection start

end Own

/-- `_load_valid_state` reads the state file and goes on if it is missing or loads. -/
theorem loadValidState_apply (name : String) (state : State Store Access) :
    loadValidState name state =
      (if (loadedState state.store.files[name]?).1 = .missing ∨
          (loadedState state.store.files[name]?).1 = .valid then
        .ok (loadedState state.store.files[name]?)
      else .error (.stateSafety (refusedLoad name state.store.files[name]?)),
        state.perform .apply (.readState name)) := by
  have loaded : loadState name state = (.ok (loadedState state.store.files[name]?), _) := rfl
  rw [loadValidState, Program.bind_ok state loaded]
  split <;> rfl

variable {call : PublishCall} {target : Target} {table : TableTarget}

/-- `publish_table` reads the state file and then goes on with what it loaded, or stops. -/
theorem publishTable_effects {env : Environment} (source : Source) (state : State Store Access)
    (reads : kind (.readState (stateFilePath env target table)))
    (loads : Effects .apply kind
      (state.perform .apply (.readState (stateFilePath env target table)))
      (publishLoaded (publicationOf env call target table) source (effectiveMode env call table)
        (loadedState state.store.files[stateFilePath env target table]?).2
        (state.perform .apply (.readState (stateFilePath env target table)))).2) :
    Effects .apply kind state (publishTable env source call target table state).2 := by
  have first : Effects .apply kind state
      (state.perform .apply (.readState (stateFilePath env target table))) :=
    ⟨[_], rfl, by simpa using reads⟩
  refine first.trans ?_
  rw [publishTable, Program.bind_apply, loadValidState_apply]
  by_cases usable : (loadedState state.store.files[stateFilePath env target table]?).1 = .missing ∨
      (loadedState state.store.files[stateFilePath env target table]?).1 = .valid
  · rw [if_pos usable]
    exact loads
  · rw [if_neg usable]
    exact .refl _

theorem makes_publishLoaded {publication : Publication} (source : Source) (mode : Mode)
    {loaded : Option PublishState}
    (fresh : Makes .apply kind (fun _ => True) (publishFresh publication source mode loaded))
    (settles : ∀ record, loaded = some record →
      Makes .apply kind (fun _ => True) (settlePending publication record)) :
    Makes .apply kind (fun _ => True) (publishLoaded publication source mode loaded) := by
  cases loaded with
  | none => exact fresh
  | some record =>
    rw [publishLoaded]
    cases stateUsable publication.stateName publication.table mode record with
    | some failure => exact .raise failure
    | none =>
      refine .andThen (settles record rfl) fun settled => ?_
      cases settled with
      | some result => exact .pure trivial
      | none => exact fresh

/-- A pending batch that was loaded is one of a state file. -/
theorem file_of_loaded {file : Option StateFile} {record : PublishState} {pending : PendingBatch}
    (loaded : (loadedState file).2 = some record) (saved : record.pending = some pending) :
    file = some (.state record) := by
  unfold loadedState at loaded
  split at loaded <;> cases loaded
  · rfl
  · cases saved

/-- Every access of `publish_table` is its own, provided the pending batch that it finds is. -/
theorem publishTable_own {env : Environment} {scope : Scope}
    (covers : scope.Covers (publicationOf env call target table)) (source : Source)
    (state : State Store Access)
    (own : ∀ record, (loadedState state.store.files[stateFilePath env target table]?).2 =
      some record → OwnPending scope record) :
    Effects .apply (Own (publicationOf env call target table) scope) state
      (publishTable env source call target table state).2 := by
  refine publishTable_effects source state ?_ (makes_publishLoaded source _ ?_ ?_ _).1
  · rw [Own, publicationOf_stateName]
    exact .inl rfl
  · exact (makes_publishFresh covers source _ own).widen fun _ => And.right
  · exact fun record loaded => makes_settlePending (own record loaded)

end ShortcutProxy.OpenMirror
