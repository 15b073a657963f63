import ShortcutProxy.OpenMirrorDryRun
import ShortcutProxy.OpenMirrorIsolation

/-!
# Dropped tables and the record of published tables

`publish_target` drops the tables that its record names and that are no longer configured. At
its end it replaces the record by the tables that are configured and enabled. A table is
therefore forgotten when its drop did not happen, and when it was disabled before it was
removed. Apart from such runs, every data file lies in the folder of a recorded table, so the
next reconciliation finds it.

The invariant speaks of pending batches too, since a later run may still land them: a saved
batch goes to the folder of a recorded table that has the same state file.
-/

namespace ShortcutProxy.OpenMirror

open Journaled Records List

variable (env : Environment) (id : String)

/-- The tables that the record of a target names. -/
def recordOf (store : Store) : List (String × String) :=
  publishedTables store.files[slug env id ++ "__tables.json"]?

/-- The folder of a recorded table. -/
def entryFolder (entry : String × String) : Option String := tableRelativePath entry.2 entry.1

/-- The state file of a recorded table. -/
def entryName (entry : String × String) : String :=
  stateFileName env id entry.1 entry.2

/-- Every data file and every saved batch belongs to one of the tables. -/
structure Tracked (entries : List (String × String)) (store : Store) : Prop where
  batches : ∀ batch ∈ store.batches, ∃ entry ∈ entries, entryFolder entry = some batch.1.folder
  pending : ∀ name record pending, store.files[name]? = some (.state record) →
    record.pending = some pending → ∃ entry ∈ entries,
      entryFolder entry = some pending.path.folder ∧ entryName env id entry = name

variable {entries : List (String × String)} {state : State Store Access} {entry : String × String}
  {folder : String}

theorem Tracked.mono {env : Environment} {id : String} {wider : List (String × String)}
    {store : Store} (tracked : Tracked env id entries store)
    (subset : ∀ entry ∈ entries, ∀ folder, entryFolder entry = some folder → entry ∈ wider) :
    Tracked env id wider store where
  batches batch inside := by
    obtain ⟨entry, recorded, folder⟩ := tracked.batches batch inside
    exact ⟨entry, subset entry recorded _ folder, folder⟩
  pending name record pending file saved := by
    obtain ⟨entry, recorded, folder, named⟩ := tracked.pending name record pending file saved
    exact ⟨entry, subset entry recorded _ folder, folder, named⟩

/-! ## Publishing keeps track -/

section Publishing

variable {env : Environment} {target : Target} {table : TableTarget}
  {entries : List (String × String)}

/-- A call on the table lands in folders of tables with its state file. -/
def trackScope (env : Environment) (target : Target) (table : TableTarget)
    (entries : List (String × String)) : Scope where
  lands folder := ∃ entry ∈ entries, entryFolder entry = some folder ∧
    entryName env target.id entry = stateFilePath env target table
  payloads path := path = pendingPayloadPath env target table

/-- The accesses of a call on the table. -/
def TrackedAccess (env : Environment) (target : Target) (table : TableTarget)
    (entries : List (String × String)) (effect : Access) : Prop :=
  IsRead effect ∨ ∃ call, Own (publicationOf env call target table)
    (trackScope env target table entries) effect

/-- What the runs keep: data files and batches are tracked, and payloads lie beside their
state files. -/
structure Kept (env : Environment) (id : String) (entries : List (String × String))
    (store : Store) : Prop where
  tracked : Tracked env id entries store
  beside : PayloadsBeside store

theorem tracked_assign {id : String} {store : Store} (tracked : Tracked env id entries store)
    {name : String} {file : Option StateFile}
    (own : ∀ record pending, file = some (.state record) → record.pending = some pending →
      ∃ entry ∈ entries, entryFolder entry = some pending.path.folder ∧
        entryName env id entry = name) :
    Tracked env id entries { store with files := assign store.files name file } where
  batches := tracked.batches
  pending other record pending found saved := by
    rcases of_getElem?_assign found with ⟨rfl, written⟩ | ⟨_, earlier⟩
    · exact own record pending written saved
    · exact tracked.pending other record pending earlier saved

theorem keepsBeside_of_tracked {effect : Access}
    (made : TrackedAccess env target table entries effect) : KeepsBeside effect := by
  rcases made with reads | ⟨call, own⟩
  · cases effect with
    | readState name => trivial
    | _ => exact reads.elim
  · exact (beside_of_own own).1

theorem tracked_apply (store : Store) (effect : Access)
    (made : TrackedAccess env target table entries effect)
    (tracked : Tracked env target.id entries store) :
    Tracked env target.id entries (store.apply effect) := by
  rcases made with reads | ⟨call, own⟩
  · rw [apply_of_isRead store effect reads]
    exact tracked
  · cases effect with
    | readState name => exact tracked
    | wroteState name file =>
      rw [Own, publicationOf_stateName] at own
      refine tracked_assign tracked ?_
      intro record pending written saved
      rcases own with ⟨named, found, same, owned⟩ | ⟨-, payload, same⟩
      · rw [same] at written
        cases written
        obtain ⟨entry, inside, folder, shared⟩ := (owned pending saved).2
        exact ⟨entry, inside, folder, shared.trans named.symm⟩
      · rw [same] at written
        cases written
    | removedState name =>
      refine tracked_assign tracked ?_
      rintro record pending ⟨⟩
    | landed path payload =>
      obtain ⟨entry, inside, folder, -⟩ := own
      refine ⟨?_, tracked.pending⟩
      intro batch present
      rcases mem_append.mp present with old | new
      · exact tracked.batches batch (mem_filter.mp old).1
      · rw [mem_singleton.mp new]
        exact ⟨entry, inside, folder⟩
    | wroteMetadata path => exact ⟨tracked.batches, tracked.pending⟩
    | removedTree folder => exact own.elim

theorem kept_apply (store : Store) (effect : Access)
    (made : TrackedAccess env target table entries effect)
    (kept : Kept env target.id entries store) :
    Kept env target.id entries (store.apply effect) where
  tracked := tracked_apply store effect made kept.tracked
  beside := payloadsBeside_apply store effect (keepsBeside_of_tracked made) kept.beside

/-- A saved batch that was loaded is in the scope of the call. -/
theorem ownPending_of_kept {store : Store} (kept : Kept env target.id entries store)
    (record : PublishState)
    (loaded : (loadedState store.files[stateFilePath env target table]?).2 = some record) :
    OwnPending (trackScope env target table entries) record := by
  intro pending saved
  have payloads := (ownPending_of_beside kept.beside record loaded pending saved).1
  exact ⟨payloads, kept.tracked.pending _ record pending (file_of_loaded loaded saved) saved⟩

/-- A call on a recorded table makes tracked accesses. -/
theorem publishTable_tracked {call : PublishCall} (source : Source)
    (recorded : table.entry ∈ entries) (kept : Kept env target.id entries state.store) :
    Effects .apply (TrackedAccess env target table entries) state
      (publishTable env source call target table state).2 := by
  have covers : (trackScope env target table entries).Covers
      (publicationOf env call target table) := by
    refine ⟨?_, publicationOf_payloadName env call target table⟩
    intro folder found
    rw [publicationOf_folder] at found
    exact ⟨table.entry, recorded, found, rfl⟩
  exact (publishTable_own covers source state (ownPending_of_kept kept)).mono
    fun effect own => .inr ⟨call, own⟩

/-- A dry run makes tracked accesses on any table: it lands at most a saved batch. -/
theorem publishTable_tracked_dry {call : PublishCall} (dry : call.dryRun = true) (source : Source)
    (kept : Kept env target.id entries state.store) :
    Effects .apply (TrackedAccess env target table entries) state
      (publishTable env source call target table state).2 := by
  have dryCall : (publicationOf env call target table).call.dryRun = true := by
    rw [publicationOf_call]
    exact dry
  refine publishTable_effects source state (.inl trivial) (makes_publishLoaded source _ ?_ ?_ _).1
  · exact (reads_publishFresh dryCall source _ _).widen fun _ => .inl
  · intro record loaded
    exact (makes_settlePending (ownPending_of_kept kept record loaded)).widen
      fun effect made => .inr ⟨call, made⟩

end Publishing

/-! ## The loop over the tables -/

section Loop

variable {env : Environment} {call : TargetCall} {target : Target}

/-- What the call on each enabled table keeps, the loop keeps. -/
theorem publishTables_keeps {invariant : Store → Prop} (entries : List (TableTarget × Nat))
    (each : ∀ entry ∈ entries, entry.1.enabled = true → ∀ state : State Store Access,
      invariant state.store →
        invariant (publishOne env call target entry.2 entry.1 state).2.store)
    {state : State Store Access} (holds : invariant state.store) :
    invariant (publishTables env call target entries state).2.store := by
  induction entries generalizing state with
  | nil => exact holds
  | cons entry rest ih =>
    rw [publishTables_cons]
    refine ih
      (fun later inside => each later (mem_cons_of_mem entry inside)) ?_
    split
    · next enabled => exact each entry mem_cons_self enabled state holds
    · exact holds

/-- The tables of a run are published under the record that the run is going to write. -/
theorem publishTables_kept {state : State Store Access}
    (kept : Kept env target.id (recordedTables target) state.store) :
    Kept env target.id (recordedTables target)
      (publishTables env call target target.tables.zipIdx state).2.store := by
  refine publishTables_keeps _ ?_ kept
  intro entry inside enabled state held
  have recorded : entry.1.entry ∈ recordedTables target := mem_map.mpr
    ⟨entry.1, mem_filter.mpr ⟨fst_mem_of_mem_zipIdx inside, enabled⟩, rfl⟩
  exact Effects.preserve (fun store effect own => kept_apply store effect own)
    (publishOne_effects entry.2 entry.1 (.inl trivial) fun _ =>
      publishTable_tracked _ recorded held) held

end Loop

/-! ## Drops -/

section Drops

variable {env : Environment} {call : TargetCall} {target : Target}

/-- The drop of a recorded table removes its folder. -/
def Drops (call : TargetCall) (entry : String × String) : Prop :=
  ∃ folder, entryFolder entry = some folder ∧ call.removal folder = .removed

theorem atOrBelow_self (folder : String) : PathText.atOrBelow folder folder = true := by
  simp [PathText.atOrBelow]

/-- A drop that removes the folder returns. -/
theorem dropEntry_apply (real : call.dryRun = false) (found : entryFolder entry = some folder)
    (removed : call.removal folder = .removed) (state : State Store Access) :
    dropEntry env call target entry state =
      (.ok (), (state.perform .apply (.removedTree folder)).perform .apply
        (.removedState (entryName env target.id entry))) := by
  have located : tableRelativePath entry.2 entry.1 = some folder := found
  rw [dropEntry, if_neg (by simp [real]), dropTable, located]
  have cleared : removeTree call.removal folder state =
      (.ok (), state.perform .apply (.removedTree folder)) := by
    rw [removeTree, removed]
    rfl
  dsimp only
  rw [Program.bind_ok state cleared]
  rfl

/-- After its drop a table is not needed to account for anything. -/
theorem kept_drop {store : Store} (found : entryFolder entry = some folder)
    (kept : Kept env target.id entries store) :
    Kept env target.id (entries.filter (· ≠ entry))
      ((store.apply (.removedTree folder)).apply
        (.removedState (entryName env target.id entry))) where
  tracked :=
    { batches := by
        intro batch inside
        obtain ⟨present, outside⟩ := mem_filter.mp inside
        obtain ⟨other, recorded, located⟩ := kept.tracked.batches batch present
        refine ⟨other, mem_filter.mpr ⟨recorded, decide_eq_true ?_⟩, located⟩
        rintro rfl
        rw [found] at located
        cases located
        rw [atOrBelow_self] at outside
        cases outside
      pending := by
        intro name record pending file saved
        have remaining : (assign store.files (entryName env target.id entry) none)[name]? =
            some (.state record) := file
        rcases of_getElem?_assign remaining with ⟨_, ⟨⟩⟩ | ⟨differs, earlier⟩
        obtain ⟨other, recorded, located, named⟩ :=
          kept.tracked.pending name record pending earlier saved
        refine ⟨other, mem_filter.mpr ⟨recorded, decide_eq_true ?_⟩, located, named⟩
        rintro rfl
        exact differs named }
  beside := payloadsBeside_apply _ _ trivial (payloadsBeside_apply _ _ trivial kept.beside)

/-- After all drops the dropped tables are not needed. -/
theorem dropAll_kept (real : call.dryRun = false) (stale : List (String × String))
    (drops : ∀ entry ∈ stale, Drops call entry) (kept : Kept env target.id entries state.store) :
    (dropAll env call target stale state).1 = .ok () ∧
      Kept env target.id (entries.filter (· ∉ stale)) (dropAll env call target stale state).2.store := by
  induction stale generalizing entries state with
  | nil =>
    refine ⟨rfl, ?_⟩
    have all : entries.filter (fun entry => entry ∉ ([] : List (String × String))) = entries := by
      simp
    rw [all]
    exact kept
  | cons entry rest ih =>
    obtain ⟨folder, found, removed⟩ := drops entry mem_cons_self
    rw [dropAll, Program.bind_ok state (dropEntry_apply real found removed state)]
    have dropped : Kept env target.id (entries.filter (· ≠ entry))
        ((state.perform .apply (.removedTree folder)).perform .apply
          (.removedState (entryName env target.id entry))).store := kept_drop found kept
    have next := ih
      (fun later inside => drops later (mem_cons_of_mem entry inside)) dropped
    refine ⟨next.1, next.2.tracked.mono ?_, next.2.beside⟩
    intro other inside _ _
    obtain ⟨first, later⟩ := mem_filter.mp inside
    obtain ⟨recorded, differs⟩ := mem_filter.mp first
    refine mem_filter.mpr ⟨recorded, decide_eq_true ?_⟩
    simp only [mem_cons, not_or]
    exact ⟨of_decide_eq_true differs, of_decide_eq_true later⟩

/-- A recorded table without a name has no folder. -/
theorem ne_empty_of_entryFolder (found : entryFolder entry = some folder) : entry.2 ≠ "" := by
  intro empty
  rw [entryFolder, empty] at found
  have nothing : ∀ schema, tableRelativePath "" schema = none := fun schema => rfl
  rw [nothing] at found
  cases found

end Drops

/-! ## Runs -/

/-- The run forgets no table: it does nothing, or is a dry run, or drops every stale table,
finds no recorded table disabled, and is still leading when it writes the record. -/
def CleanRun (call : TargetCall) (target : Target) (store : Store) : Prop :=
  target.enabled = false ∨ call.opens = false ∨ call.dryRun = true ∨
    (call.reconcile = true ∧ call.leads .drops = true ∧ call.leads .record = true ∧
      (∀ entry ∈ staleEntries target (recordOf env target.id store), Drops call entry) ∧
      ∀ entry ∈ recordOf env target.id store, entry ∈ target.tables.map TableTarget.entry →
        entry ∈ recordedTables target)

/-- Every data file lies in the folder of a recorded table. -/
def Recorded (store : Store) : Prop :=
  ∀ batch ∈ store.batches, ∃ entry ∈ recordOf env id store,
    entryFolder entry = some batch.1.folder

section Runs

variable {env : Environment} {call : TargetCall} {target : Target} {state : State Store Access}

/-- The record of a target is not the state file of one of its tables, which has more
underscores. -/
theorem recordFile_ne_stateFileName (env : Environment) (id schema table : String) :
    slug env id ++ "__tables.json" ≠ stateFileName env id schema table := by
  intro same
  have letters := congrArg (fun text => text.toList.count '_') same
  have record : "__tables.json".toList.count '_' = 2 := by decide
  have bar : "__".toList.count '_' = 2 := by decide
  simp only [stateFileName, String.toList_append, count_append, record, bar] at letters
  omega

/-- The calls on tables leave the record alone. -/
theorem recordOf_apply {table : TableTarget} (store : Store) (effect : Access)
    (made : TrackedAccess env target table entries effect) :
    recordOf env target.id (store.apply effect) = recordOf env target.id store := by
  rcases made with reads | ⟨call, own⟩
  · rw [apply_of_isRead store effect reads]
  · rw [recordOf, getElem?_apply_of_file, recordOf]
    intro touched
    rcases (beside_of_own own).2 _ touched with same | same
    · exact recordFile_ne_stateFileName env target.id _ _ same
    · exact append_ne_of_getLast 'n' 't' (by decide) (by decide) (by decide) same

/-- The drops of a clean run leave what the run is going to record. -/
theorem attemptDrops_kept (real : call.dryRun = false) (reconcile : call.reconcile = true)
    (leads : call.leads .drops = true)
    (drops : ∀ entry ∈ staleEntries target (recordOf env target.id state.store), Drops call entry)
    (enabled : ∀ entry ∈ recordOf env target.id state.store,
      entry ∈ target.tables.map TableTarget.entry → entry ∈ recordedTables target)
    (kept : Kept env target.id (recordOf env target.id state.store) state.store) :
    Kept env target.id (recordedTables target) (attemptDrops env call target state).2.store := by
  have read : Kept env target.id (recordOf env target.id state.store)
      (state.perform .apply (.readState (targetManifestPath env target))).store := kept
  obtain ⟨returned, dropped⟩ := dropAll_kept real _ drops read
  have checked : call.check .drops state = (.ok (), state) := by
    rw [TargetCall.check, if_pos leads]
    rfl
  have body : (do call.check .drops
                  reconcileDrops env call target : Publish Unit) state =
      dropAll env call target (staleEntries target (recordOf env target.id state.store))
        (state.perform .apply (.readState (targetManifestPath env target))) := by
    rw [Program.bind_ok state checked]
    rfl
  have whole : (attemptDrops env call target state).2 =
      (dropAll env call target (staleEntries target (recordOf env target.id state.store))
        (state.perform .apply (.readState (targetManifestPath env target)))).2 := by
    rw [attemptDrops, if_pos reconcile, Program.recoverWith, body]
    split
    · next outcome => rw [outcome]
    · next outcome =>
      rw [outcome] at returned
      cases returned
  rw [whole]
  refine ⟨dropped.tracked.mono fun entry inside folder found => ?_, dropped.beside⟩
  obtain ⟨recorded, fresh⟩ := mem_filter.mp inside
  refine enabled entry recorded ?_
  by_contra removed
  refine of_decide_eq_true fresh (mem_filter.mpr ⟨recorded, decide_eq_true ?_⟩)
  exact ⟨ne_empty_of_entryFolder found, removed⟩

/-- A dry run keeps track under the same record. -/
theorem publishTarget_kept_dry (dry : call.dryRun = true) (enabled : target.enabled = true)
    (opens : call.opens = true)
    (kept : Kept env target.id (recordOf env target.id state.store) state.store) :
    Kept env target.id (recordOf env target.id (publishTarget env call target state).2.store)
      (publishTarget env call target state).2.store := by
  have drops : Effects .apply IsRead state (attemptDrops env call target state).2 :=
    (reads_attemptDrops dry state).1
  have same := drops.store_eq apply_of_isRead
  rw [publishTarget_dry dry enabled opens]
  generalize before : recordOf env target.id state.store = entries at kept
  have both : Kept env target.id entries
        (publishTables env call target target.tables.zipIdx
          (attemptDrops env call target state).2).2.store ∧
      recordOf env target.id (publishTables env call target target.tables.zipIdx
          (attemptDrops env call target state).2).2.store = entries := by
    refine @publishTables_keeps env call target
      (fun store => Kept env target.id entries store ∧ recordOf env target.id store = entries)
      target.tables.zipIdx ?_ _ (same ▸ ⟨kept, before⟩)
    rintro entry inside _ state ⟨held, recorded⟩
    have made : Effects .apply (TrackedAccess env target entry.1 entries) state
        (publishOne env call target entry.2 entry.1 state).2 :=
      publishOne_effects entry.2 entry.1 (.inl trivial) fun _ =>
        publishTable_tracked_dry dry _ held
    refine ⟨made.preserve (fun store effect own => kept_apply store effect own) held, ?_⟩
    exact @Effects.preserve _ _ _ _ _ _ (fun store => recordOf env target.id store = entries)
      (fun store effect own found => (recordOf_apply store effect own).trans found) made recorded
  rw [both.2]
  exact both.1

/-- The record that a run writes is the one that is read afterwards. -/
theorem recordOf_saved (store : Store) (entries : List (String × String)) :
    recordOf env target.id
      (store.apply (.wroteState (targetManifestPath env target) (.tables entries))) = entries := by
  have saved : (assign store.files (targetManifestPath env target)
      (some (.tables entries)))[targetManifestPath env target]? =
        some (.tables entries) := getElem?_assign_self _ _ _
  have found : publishedTables ((assign store.files (targetManifestPath env target)
      (some (.tables entries)))[targetManifestPath env target]?) = entries := by
    rw [saved]
    rfl
  exact found

/-- A real run that forgets nothing ends with its record of the enabled tables, under which
everything is tracked. -/
theorem publishTarget_kept_real (real : call.dryRun = false) (enabled : target.enabled = true)
    (opens : call.opens = true) (leads : call.leads .record = true)
    (dropped : Kept env target.id (recordedTables target)
      (attemptDrops env call target state).2.store) :
    recordOf env target.id (publishTarget env call target state).2.store = recordedTables target ∧
      Kept env target.id (recordedTables target) (publishTarget env call target state).2.store := by
  have published := @publishTables_kept env call target _ dropped
  generalize loop : (publishTables env call target target.tables.zipIdx
    (attemptDrops env call target state).2).2 = final at published
  have checked : call.check .record final = (.ok (), final) := by
    rw [TargetCall.check, if_pos leads]
    rfl
  have ends : (publishTarget env call target state).2 = final.perform .apply
      (.wroteState (targetManifestPath env target) (.tables (recordedTables target))) := by
    rw [publishTarget, if_neg (by simp [enabled, opens]),
      Program.bind_returns state (attemptDrops_returns state),
      Program.bind_returns _ (publishTables_returns _ _), if_neg (by simp [real]), loop,
      Program.bind_ok final checked]
    rfl
  rw [ends]
  refine ⟨recordOf_saved final.store _, ?_, ?_⟩
  · refine tracked_assign published.tracked ?_
    rintro record pending ⟨⟩
  · exact payloadsBeside_apply _ _ trivial published.beside

/-- A clean run keeps track under its record. -/
theorem publishTarget_kept (clean : CleanRun env call target state.store)
    (kept : Kept env target.id (recordOf env target.id state.store) state.store) :
    Kept env target.id (recordOf env target.id (publishTarget env call target state).2.store)
      (publishTarget env call target state).2.store := by
  by_cases skipped : target.enabled = false ∨ call.opens = false
  · rw [publishTarget, if_pos skipped]
    exact kept
  · obtain ⟨enabled, opens⟩ : target.enabled = true ∧ call.opens = true := by simpa using skipped
    rcases clean with off | closed | dry | ⟨reconcile, leadsDrops, leadsRecord, drops, stays⟩
    · exact absurd (.inl off) skipped
    · exact absurd (.inr closed) skipped
    · exact publishTarget_kept_dry dry enabled opens kept
    · cases real : call.dryRun with
      | true => exact publishTarget_kept_dry real enabled opens kept
      | false =>
        have result := publishTarget_kept_real real enabled opens leadsRecord
          (attemptDrops_kept real reconcile leadsDrops drops stays kept)
        rw [result.1]
        exact result.2

end Runs

/-- The state after runs on empty directories. -/
def afterRuns (runs : List (TargetCall × Target)) : State Store Access :=
  runs.foldl (fun state run => (publishTarget env run.1 run.2 state).2) ⟨{}, []⟩

/-- Every run forgets no table, in the state it starts from. -/
def CleanRuns (runs : List (TargetCall × Target)) : Prop :=
  EachStep (fun earlier run => CleanRun env run.1 run.2 (afterRuns env earlier).store) runs

theorem afterRuns_append_singleton (runs : List (TargetCall × Target)) (run : TargetCall × Target) :
    afterRuns env (runs ++ [run]) = (publishTarget env run.1 run.2 (afterRuns env runs)).2 := by
  rw [afterRuns, foldl_append]
  rfl

/-- Clean runs of one target keep track of everything. -/
theorem afterRuns_kept {env : Environment} {id : String} {runs : List (TargetCall × Target)}
    (same : ∀ run ∈ runs, run.2.id = id) (clean : CleanRuns env runs) :
    Kept env id (recordOf env id (afterRuns env runs).store) (afterRuns env runs).store := by
  induction runs using List.reverseRecOn with
  | nil =>
    refine ⟨⟨?_, ?_⟩, ?_⟩
    · intro batch inside
      cases inside
    · intro name record pending found
      simp [afterRuns] at found
    · intro name record found
      simp [afterRuns] at found
  | append_singleton earlier run ih =>
    have before := ih
      (fun run inside => same run (mem_append_left _ inside))
      (.of_append clean)
    have named : run.2.id = id := same run (by simp)
    have step := EachStep.last clean
    rw [afterRuns_append_singleton, ← named]
    rw [← named] at before
    exact publishTarget_kept step before

/-- A real run of a clean history ends with data files of enabled tables only. -/
theorem folders_enabled_after_run {env : Environment} {id : String}
    {earlier : List (TargetCall × Target)} {run : TargetCall × Target}
    (same : ∀ other ∈ earlier ++ [run], other.2.id = id) (clean : CleanRuns env (earlier ++ [run]))
    (enabled : run.2.enabled = true) (opens : run.1.opens = true) (real : run.1.dryRun = false) :
    ∀ batch ∈ (afterRuns env (earlier ++ [run])).store.batches, ∃ table ∈ run.2.tables,
      table.enabled = true ∧
        tableRelativePath table.targetTable (table.schema.getD "") = some batch.1.folder := by
  have named : run.2.id = id := same run (by simp)
  have before := afterRuns_kept (fun other inside => same other (mem_append_left _ inside))
    (.of_append clean)
  rw [← named] at before
  rcases EachStep.last clean with off | closed | dry |
    ⟨reconcile, leadsDrops, leadsRecord, drops, stays⟩
  · rw [off] at enabled
    cases enabled
  · rw [closed] at opens
    cases opens
  · rw [dry] at real
    cases real
  · have result := publishTarget_kept_real real enabled opens leadsRecord
      (attemptDrops_kept real reconcile leadsDrops drops stays before)
    intro batch inside
    rw [afterRuns_append_singleton] at inside
    obtain ⟨entry, recorded, folder⟩ := result.2.tracked.batches batch inside
    obtain ⟨table, present, rfl⟩ := mem_map.mp recorded
    obtain ⟨configured, active⟩ := mem_filter.mp present
    exact ⟨table, configured, active, folder⟩

/-- In every history of runs of one target that forget no table, each data file lies in the
folder of a recorded table after every run, and a real run leaves only data files of tables
that it has configured and enabled. -/
theorem published_folders_recorded_until_dropped (env : Environment) (id : String)
    (runs : List (TargetCall × Target)) (same : ∀ run ∈ runs, run.2.id = id)
    (clean : CleanRuns env runs) :
    (∀ earlier later, runs = earlier ++ later →
      Recorded env id (afterRuns env earlier).store) ∧
    (∀ earlier run later, runs = earlier ++ run :: later → run.2.enabled = true →
      run.1.opens = true → run.1.dryRun = false →
        ∀ batch ∈ (afterRuns env (earlier ++ [run])).store.batches, ∃ table ∈ run.2.tables,
          table.enabled = true ∧
            tableRelativePath table.targetTable (table.schema.getD "") = some batch.1.folder) := by
  constructor
  · rintro earlier later rfl
    exact (afterRuns_kept (fun run inside => same run (mem_append_left _ inside))
      (.of_append clean)).tracked.batches
  · rintro earlier run later rfl enabled opens real
    have shape : earlier ++ run :: later = (earlier ++ [run]) ++ later := by simp
    rw [shape] at same clean
    exact folders_enabled_after_run (fun other inside => same other (mem_append_left _ inside))
      (.of_append clean) enabled opens real

/-! ## Histories -/

instance (call : TargetCall) (entry : String × String) : Decidable (Drops call entry) :=
  decidable_of_iff ((entryFolder entry).any fun folder => call.removal folder = .removed) (by
    rw [Option.any_eq_true]
    exact exists_congr fun folder => and_congr_right fun _ => decide_eq_true_iff)

instance (env : Environment) (call : TargetCall) (target : Target) (store : Store) :
    Decidable (CleanRun env call target store) :=
  inferInstanceAs (Decidable (_ ∨ _ ∨ _ ∨ (_ ∧ _ ∧ _ ∧ _ ∧ _)))

/-- A table of a shop. -/
def shopTable (name : String) (enabled : Bool) : TableTarget where
  name := name
  sourceTable := name
  targetTable := name
  keyColumn := "id"
  mode := some .snapshot
  enabled := enabled

/-- A target with tables of a shop. -/
def shopTarget (tables : List TableTarget) : Target where
  id := "shop"
  landingZoneRoot := "/landing"
  tables := tables

/-- A run over tables with one row each, with an outcome for removals. -/
def shopRun (removal : Removal) (tables : List TableTarget) : TargetCall × Target :=
  ({ removal := fun _ => removal, sources := fun _ =>
      ⟨.ok { columns := ["id"], fingerprint := "f" }, fun _ => .ok [[("id", .int 1)]]⟩ },
    shopTarget tables)

/-- The folders that hold data files after runs, and the record. -/
def foldersAndRecord (runs : List (TargetCall × Target)) : List String × List (String × String) :=
  let store := (afterRuns .readable runs).store
  (store.batches.map fun batch => batch.1.folder, recordOf .readable "shop" store)

theorem removed_table_dropped :
    let runs := [shopRun .removed [shopTable "orders" true, shopTable "returns" true],
      shopRun .removed [shopTable "orders" true]]
    CleanRuns .readable runs ∧ foldersAndRecord runs = (["orders"], [("", "orders")]) ∧
      Recorded .readable "shop" (afterRuns .readable runs).store := by
  have first : CleanRuns .readable
      ([] ++ [shopRun .removed [shopTable "orders" true, shopTable "returns" true]]) :=
    EachStep.append_singleton .nil (by decide +kernel)
  have clean : CleanRuns .readable
      ([] ++ [shopRun .removed [shopTable "orders" true, shopTable "returns" true]] ++
        [shopRun .removed [shopTable "orders" true]]) :=
    .append_singleton first (by decide +kernel)
  refine ⟨clean, by decide +kernel, ?_⟩
  exact (published_folders_recorded_until_dropped .readable "shop" _ (by decide +kernel)
    clean).1 _ [] (append_nil _).symm

/-- A table whose drop failed, and a table that was disabled before it was removed, are no
longer recorded, and later runs that could drop them leave their folders. -/
theorem forgotten_tables_remain :
    foldersAndRecord
        [shopRun .removed [shopTable "orders" true, shopTable "returns" true],
          shopRun (.raised "busy") [shopTable "orders" true],
          shopRun .removed [shopTable "orders" true]] =
      (["orders", "returns"], [("", "orders")]) ∧
    foldersAndRecord
        [shopRun .removed [shopTable "orders" true, shopTable "returns" true],
          shopRun .removed [shopTable "orders" true, shopTable "returns" false],
          shopRun .removed [shopTable "orders" true]] =
      (["orders", "returns"], [("", "orders")]) := by
  refine ⟨by decide +kernel, by decide +kernel⟩

end ShortcutProxy.OpenMirror
