import ShortcutProxy.OpenMirrorTargets

/-!
# Dry runs of Open Mirroring

A dry run reads the source and reports what it would publish. Both strategies, the drops and
the record of published tables look at `dry_run` before they write. The recovery of a pending
batch does not: a batch whose data file has landed is committed, and a batch whose payload is
kept beside the state is landed, whatever `dry_run` says. These are the only writes of a dry
run.
-/

namespace ShortcutProxy.OpenMirror

open Journaled Records Program

/-- The access only reads. -/
def IsRead : Access → Prop
  | .readState _ => True
  | _ => False

theorem apply_of_isRead (store : Store) (effect : Access) (reads : IsRead effect) :
    store.apply effect = store := by
  cases effect with
  | readState name => rfl
  | _ => exact reads.elim

/-! ## When a pending batch is settled -/

/-- The payload of a pending batch is kept beside the state, and is the one that was saved. -/
def Prepared (publication : Publication) (store : Store) (pending : PendingBatch) : Prop :=
  pending.payloadPath = some publication.payloadName ∧
    ∃ payload, store.files[publication.payloadName]? = some (.payload payload) ∧
      publication.env.payloadDigest payload = pending.contentHash

/-- The pending batch of a state is settled on the spot. -/
def Settles (publication : Publication) (store : Store) (state : PublishState) : Prop :=
  ∃ pending, state.pending = some pending ∧
    ((Landed store pending ∧ publication.call.leads .foundPending = true) ∨
      (¬Landed store pending ∧ Prepared publication store pending ∧
        publication.call.leads .beforeReplay = true))

/-- `publish_table` finds a usable state with a pending batch that it settles. -/
def SettlesTable (env : Environment) (call : PublishCall) (target : Target) (table : TableTarget)
    (store : Store) : Prop :=
  ∃ record, store.files[stateFilePath env target table]? = some (.state record) ∧
    stateUsable (stateFilePath env target table) table (effectiveMode env call table) record =
      none ∧
    Settles (publicationOf env call target table) store record

/-! ## A dry run that settles nothing -/

theorem ownPending_all (record : PublishState) : OwnPending .all record :=
  fun _ _ => ⟨fun _ _ => trivial, trivial⟩

theorem reads_publishFresh {publication : Publication} (dry : publication.call.dryRun = true)
    (source : Source) (mode : Mode) (loaded : Option PublishState) :
    Makes .apply IsRead (fun _ => True) (publishFresh publication source mode loaded) := by
  refine (makes_publishFresh (Scope.covers_all publication) source mode
    fun record _ => ownPending_all record).widen ?_
  rintro effect ⟨wet, -⟩
  rw [dry] at wet
  cases wet

/-! ## Settling -/

section Settling

variable {publication : Publication} {record : PublishState} {state : State Store Access}

theorem checkLeadership_refused {call : PublishCall} {place : Checkpoint}
    (refused : ¬call.leads place = true) (state : State Store Access) :
    checkLeadership call place state = (.error .notLeading, state) := by
  rw [checkLeadership, if_neg refused]
  rfl

theorem checkLeadership_passed {call : PublishCall} {place : Checkpoint}
    (leads : call.leads place = true) (state : State Store Access) :
    checkLeadership call place state = (.ok (), state) := by
  rw [checkLeadership, if_pos leads]
  rfl

variable {pending : PendingBatch}

/-- A landed batch is committed if the call leads, and nothing is done otherwise. -/
theorem settlePending_landed (recorded : record.pending = some pending)
    (landed : Landed state.store pending) :
    settlePending publication record state = commitLanded publication record state := by
  unfold settlePending
  rw [recorded]
  dsimp only
  rw [bind_ok state (read_apply state _), if_pos (decide_eq_true landed)]

/-- The payload of a batch that has not landed is looked for. -/
theorem settlePending_missing {path : String} (recorded : record.pending = some pending)
    (missing : ¬Landed state.store pending) (prepared : pending.payloadPath = some path) :
    settlePending publication record state =
      settleFrom publication record pending path state.store.files[path]?
        (state.perform .apply (.readState path)) := by
  unfold settlePending
  rw [recorded]
  dsimp only
  rw [bind_ok state (read_apply state _), if_neg (by simpa using missing), prepared]
  rfl

/-- A file that does not settle the batch is only looked at. -/
theorem settleFrom_reads {path : String} {file : Option StateFile}
    (unsettled : ∀ payload, path = publication.payloadName → file = some (.payload payload) →
      publication.env.payloadDigest payload = pending.contentHash →
        ¬publication.call.leads .beforeReplay = true) :
    (settleFrom publication record pending path file state).2 = state := by
  unfold settleFrom
  cases file with
  | none => rfl
  | some contents =>
    dsimp only
    by_cases own : path = publication.payloadName
    · rw [if_neg (not_not.mpr own)]
      cases contents with
      | payload payload =>
        dsimp only
        by_cases matching : publication.env.payloadDigest payload = pending.contentHash
        · have refused := unsettled payload own rfl matching
          rw [if_neg (not_not.mpr matching), replayPayload,
            bind_error state (checkLeadership_refused refused state)]
        · rw [if_pos matching]
          rfl
      | state | unusable | tables => rfl
    · rw [if_pos own]
      rfl

/-- A pending batch that is not settled is only looked at. -/
theorem settlePending_reads (unsettled : ¬Settles publication state.store record) :
    Effects .apply IsRead state (settlePending publication record state).2 := by
  cases recorded : record.pending with
  | none =>
    unfold settlePending
    rw [recorded]
    exact .refl state
  | some pending =>
    by_cases landed : Landed state.store pending
    · have refused : ¬publication.call.leads .foundPending = true :=
        fun leads => unsettled ⟨pending, recorded, .inl ⟨landed, leads⟩⟩
      rw [settlePending_landed recorded landed, commitLanded,
        bind_error state (checkLeadership_refused refused state)]
      exact .refl state
    · cases prepared : pending.payloadPath with
      | none =>
        unfold settlePending
        rw [recorded]
        dsimp only
        rw [bind_ok state (read_apply state _),
          if_neg (by simpa using landed), prepared]
        exact .refl state
      | some path =>
        rw [settlePending_missing recorded landed prepared, settleFrom_reads]
        · exact ⟨[.readState path], rfl, by simp [IsRead]⟩
        · intro payload own file matching leads
          refine unsettled ⟨pending, recorded, .inr ⟨landed, ⟨?_, payload, ?_, matching⟩, leads⟩⟩
          · rw [prepared, own]
          · rw [← own]
            exact file

/-- Committing a pending batch writes the state file. -/
theorem finalizePending_writes (name : String) (recorded : record.pending = some pending)
    (state : State Store Access) :
    Adds .apply (fun effect => ¬IsRead effect) state (finalizePending name record state).2 := by
  unfold finalizePending
  rw [recorded]
  have wrote : Adds .apply (fun effect => ¬IsRead effect) state
      (state.perform .apply (.wroteState name (.state (committedState record pending)))) :=
    .perform (fun reads : False => reads) state
  have rest : Makes .apply (fun _ => True) (fun _ => True)
      (do removePayload pending.payloadPath
          pure (committedState record pending) : Publish PublishState) := by
    refine .andThen ?_ fun _ => .pure trivial
    cases pending.payloadPath with
    | none => exact .pure trivial
    | some path => exact .perform trivial
  exact wrote.after (rest _).1

/-- Replaying a payload lands it. -/
theorem replayPayload_writes {path : BatchPath} {payload : Payload}
    (leads : publication.call.leads .beforeReplay = true) (state : State Store Access) :
    Adds .apply (fun effect => ¬IsRead effect) state
      (replayPayload publication record path payload state).2 := by
  rw [replayPayload, bind_ok state (checkLeadership_passed leads state)]
  have landing : Adds .apply (fun effect => ¬IsRead effect) state
      (state.perform .apply (.landed path payload)) :=
    .perform (fun reads : False => reads) state
  have verified : Makes .apply (Own publication .all) (fun _ => True)
      (if publication.call.verified path then pure ()
        else .raise (.osError ("landing-zone write could not be verified at " ++
          quotedText path.text)) : Publish Unit) :=
    .ite (fun _ => .pure trivial) fun _ => .raise _
  have rest : Makes Store.apply (Own publication Scope.all) (fun _ => True)
      (do checkLeadership publication.call .afterReplay
          let _ ← finalizePending publication.stateName record
          pure (some { action := .recovery, recovery := some "replayed_prepared_payload" }) :
        Publish (Option PublishResult)) :=
    Makes.andThen (makes_checkLeadership _ _) fun _ =>
      Makes.bind (makes_finalizePending (ownPending_all record)) fun _ _ => .pure trivial
  exact landing.after (Makes.andThen verified (fun _ => rest) _).1

/-- A pending batch that is settled is written about. -/
theorem settlePending_writes (settles : Settles publication state.store record) :
    Adds .apply (fun effect => ¬IsRead effect) state
      (settlePending publication record state).2 := by
  obtain ⟨pending, recorded, ⟨landed, leads⟩ | ⟨missing, ⟨beside, payload, file, matching⟩, leads⟩⟩ :=
    settles
  · rw [settlePending_landed recorded landed, commitLanded,
      bind_ok state (checkLeadership_passed leads state), bind_apply]
    have writes := finalizePending_writes publication.stateName recorded state
    split
    · next outcome => rwa [outcome] at writes
    · next outcome => rwa [outcome] at writes
  · rw [settlePending_missing recorded missing beside, file]
    have read : Effects .apply (fun _ => True) state
        (state.perform .apply (.readState publication.payloadName)) := ⟨[_], rfl, by simp⟩
    refine .before read ?_
    unfold settleFrom
    dsimp only
    rw [if_neg (not_not.mpr rfl), if_neg (not_not.mpr matching)]
    exact replayPayload_writes leads _

end Settling

/-! ## `publish_table` -/

variable {state : State Store Access}

section PublishTable

variable {env : Environment} {call : PublishCall} {target : Target} {table : TableTarget}

/-- What was loaded goes on to be settled. -/
theorem publishLoaded_reads {publication : Publication} (dry : publication.call.dryRun = true)
    (source : Source) (mode : Mode) {loaded : Option PublishState}
    (unsettled : ∀ record, loaded = some record →
      stateUsable publication.stateName publication.table mode record = none →
        ¬Settles publication state.store record) :
    Effects .apply IsRead state (publishLoaded publication source mode loaded state).2 := by
  cases loaded with
  | none => exact (reads_publishFresh dry source mode none state).1
  | some record =>
    rw [publishLoaded]
    cases usable : stateUsable publication.stateName publication.table mode record with
    | some failure => exact .refl state
    | none =>
      have settled := settlePending_reads (unsettled record rfl usable)
      dsimp only
      rw [bind_apply]
      split
      · next result later outcome =>
        rw [outcome] at settled
        refine settled.trans ?_
        cases result with
        | some result => exact .refl later
        | none => exact (reads_publishFresh dry source mode (some record) later).1
      · next outcome => rwa [outcome] at settled

/-- A dry run of `publish_table` that settles nothing only reads. -/
theorem publishTable_reads (dry : call.dryRun = true) (source : Source)
    (unsettled : ¬SettlesTable env call target table state.store) :
    Effects .apply IsRead state (publishTable env source call target table state).2 := by
  refine publishTable_effects source state trivial (publishLoaded_reads ?_ source _ ?_)
  · rw [publicationOf_call]
    exact dry
  · intro record loaded usable settles
    rw [publicationOf_stateName, publicationOf_table] at usable
    obtain ⟨pending, recorded, -⟩ := id settles
    exact unsettled ⟨record, file_of_loaded loaded recorded, usable, settles⟩

/-- A call that settles a pending batch writes, dry run or not. -/
theorem publishTable_writes (source : Source)
    (settles : SettlesTable env call target table state.store) :
    Adds .apply (fun effect => ¬IsRead effect) state
      (publishTable env source call target table state).2 := by
  obtain ⟨record, file, usable, settled⟩ := settles
  have read : Effects .apply (fun _ => True) state
      (state.perform .apply (.readState (stateFilePath env target table))) := ⟨[_], rfl, by simp⟩
  refine .before read ?_
  have loaded : loadValidState (stateFilePath env target table) state =
      (.ok (.valid, some record),
        state.perform .apply (.readState (stateFilePath env target table))) := by
    rw [loadValidState_apply, file]
    rfl
  rw [publishTable, bind_ok state loaded]
  rw [publishLoaded, publicationOf_stateName, publicationOf_table, usable]
  dsimp only
  generalize within : state.perform .apply (.readState (stateFilePath env target table)) = next
  have kept : Settles (publicationOf env call target table) next.store record := by
    rw [← within]
    exact settled
  have writes := settlePending_writes kept
  rw [bind_apply]
  split
  · next result later outcome =>
    rw [outcome] at writes
    refine writes.after (?_ : Effects .apply
      (Published (publicationOf env call target table) .all) later _)
    cases result with
    | some result => exact .refl later
    | none =>
      exact (makes_publishFresh (Scope.covers_all _) source _
        (fun record _ => ownPending_all record) later).1
  · next outcome => rwa [outcome] at writes

end PublishTable

/-! ## `publish_target` -/

section PublishTarget

variable {env : Environment} {call : TargetCall} {target : Target}

/-- The call on a table is made and settles a pending batch. -/
def SettlesAt (env : Environment) (call : TargetCall) (target : Target) (store : Store)
    (entry : TableTarget × Nat) : Prop :=
  entry.1.enabled = true ∧ call.leads (.table entry.2) = true ∧
    SettlesTable env (call.tableCall entry.2) target entry.1 store

/-- Some table of the target is published and settles a pending batch. -/
def SettlesTarget (env : Environment) (call : TargetCall) (target : Target) (store : Store) :
    Prop :=
  target.enabled = true ∧ call.opens = true ∧
    ∃ entry ∈ target.tables.zipIdx, SettlesAt env call target store entry

/-- The call on one table is that of `publish_table`, if it leads. The report of a failure
reads the state of the table again. -/
theorem publishOne_reports (index : Nat) (table : TableTarget) (state : State Store Access) :
    Effects .apply (· = .readState (stateFilePath env target table))
      (if call.leads (.table index) = true then
        (publishTable env (call.sources index) (call.tableCall index) target table state).2
      else state)
      (publishOne env call target index table state).2 := by
  unfold publishOne recoverWith TargetCall.check
  by_cases leads : call.leads (.table index) = true
  · rw [if_pos leads, if_pos leads, bind_ok state (pure_apply state ()),
      bind_apply]
    cases publishTable env (call.sources index) (call.tableCall index) target table state with
    | mk outcome later =>
      cases outcome with
      | ok result => exact .refl later
      | error failure => exact ⟨[_], rfl, by simp⟩
  · rw [if_neg leads, if_neg leads]
    exact ⟨[_], rfl, by simp⟩

theorem publishOne_effects {kind : Access → Prop} (index : Nat) (table : TableTarget)
    (reads : kind (.readState (stateFilePath env target table)))
    (made : call.leads (.table index) = true → Effects .apply kind state
      (publishTable env (call.sources index) (call.tableCall index) target table state).2) :
    Effects .apply kind state (publishOne env call target index table state).2 := by
  refine .trans ?_ ((publishOne_reports index table state).mono ?_)
  · split
    · next leads => exact made leads
    · exact .refl state
  · rintro effect rfl
    exact reads

/-- The call on a table, unless the table is disabled. -/
theorem publishTables_cons (table : TableTarget) (index : Nat) (rest : List (TableTarget × Nat))
    (state : State Store Access) :
    publishTables env call target ((table, index) :: rest) state =
      publishTables env call target rest
        (if table.enabled then (publishOne env call target index table state).2 else state) := by
  rw [publishTables]
  by_cases enabled : table.enabled = true
  · rw [if_pos enabled, if_pos enabled]
    exact bind_returns state (recoverWith_returns state fun _ _ => rfl) _
  · rw [if_neg enabled, if_neg enabled]

theorem publishTables_any (entries : List (TableTarget × Nat)) (state : State Store Access) :
    Effects .apply (fun _ => True) state (publishTables env call target entries state).2 := by
  induction entries generalizing state with
  | nil => exact .refl state
  | cons entry rest ih =>
    rw [publishTables_cons]
    refine .trans ?_ (ih _)
    split
    · exact publishOne_effects _ _ trivial fun _ => (publishTable_own (Scope.covers_all _) _ state
        fun record _ => ownPending_all record).mono fun _ _ => trivial
    · exact .refl state

theorem publishTables_reads (dry : call.dryRun = true) (entries : List (TableTarget × Nat))
    (unsettled : ∀ entry ∈ entries, ¬SettlesAt env call target state.store entry) :
    Effects .apply IsRead state (publishTables env call target entries state).2 := by
  induction entries generalizing state with
  | nil => exact .refl state
  | cons entry rest ih =>
    rw [publishTables_cons]
    have head : Effects .apply IsRead state
        (if entry.1.enabled then (publishOne env call target entry.2 entry.1 state).2
          else state) := by
      split
      · next enabled =>
        refine publishOne_effects _ _ trivial fun leads => publishTable_reads dry _ ?_
        exact fun settles => unsettled entry List.mem_cons_self ⟨enabled, leads, settles⟩
      · exact .refl state
    -- the store is the same after a table that only reads
    have same := head.store_eq apply_of_isRead
    refine head.trans (ih ?_)
    rw [same]
    exact fun later inside => unsettled later (List.mem_cons_of_mem entry inside)

theorem publishTables_writes (dry : call.dryRun = true) (entries : List (TableTarget × Nat))
    (settles : ∃ entry ∈ entries, SettlesAt env call target state.store entry) :
    Adds .apply (fun effect => ¬IsRead effect) state
      (publishTables env call target entries state).2 := by
  induction entries generalizing state with
  | nil =>
    obtain ⟨entry, inside, -⟩ := settles
    cases inside
  | cons entry rest ih =>
    rw [publishTables_cons]
    by_cases here : SettlesAt env call target state.store entry
    · obtain ⟨enabled, leads, settled⟩ := here
      rw [if_pos enabled]
      have reports := @publishOne_reports env call target entry.2 entry.1 state
      rw [if_pos leads] at reports
      exact ((publishTable_writes (call.sources entry.2) settled).after reports).after
        (publishTables_any rest _)
    · have head : Effects .apply IsRead state
          (publishTables env call target [entry] state).2 := by
        refine publishTables_reads dry [entry] ?_
        intro only inside
        rw [List.mem_singleton.mp inside]
        exact here
      rw [publishTables_cons] at head
      have same := Effects.store_eq apply_of_isRead head
      refine .before head (ih ?_)
      obtain ⟨later, inside, settled⟩ := settles
      rcases List.mem_cons.mp inside with rfl | behind
      · exact absurd settled here
      · exact ⟨later, behind, same ▸ settled⟩

theorem reads_dropAll (dry : call.dryRun = true) (entries : List (String × String)) :
    Makes .apply IsRead (fun _ => True) (dropAll env call target entries) := by
  induction entries with
  | nil => exact .pure trivial
  | cons entry rest ih =>
    refine .andThen ?_ fun _ => ih
    rw [dropEntry, if_pos dry, reportDrop]
    cases tableRelativePath entry.2 entry.1 with
    | none => exact .raise _
    | some folder => exact .pure trivial

/-- The drops of a dry run only read. -/
theorem reads_attemptDrops (dry : call.dryRun = true) :
    Makes .apply IsRead (fun _ => True) (attemptDrops env call target) := by
  refine .ite (fun _ => .recoverWith ?_ fun _ => .pure trivial)
    fun _ => .pure trivial
  refine .andThen (.ite (fun _ => .pure trivial) fun _ => .raise _) fun _ => ?_
  exact .andThen (.perform trivial) fun _ =>
    .andThen (.read _) fun entries => reads_dropAll dry _

theorem attemptDrops_returns (state : State Store Access) :
    (attemptDrops env call target state).1 = .ok () := by
  unfold attemptDrops
  split
  · exact recoverWith_returns state fun _ _ => rfl
  · rfl

theorem publishTables_returns (entries : List (TableTarget × Nat)) (state : State Store Access) :
    (publishTables env call target entries state).1 = .ok () := by
  induction entries generalizing state with
  | nil => rfl
  | cons entry rest ih =>
    rw [publishTables_cons]
    exact ih _

/-- A dry run attempts the drops and publishes the tables, and records nothing. -/
theorem publishTarget_dry (dry : call.dryRun = true) (enabled : target.enabled = true)
    (opens : call.opens = true) (state : State Store Access) :
    (publishTarget env call target state).2 =
      (publishTables env call target target.tables.zipIdx
        (attemptDrops env call target state).2).2 := by
  rw [publishTarget, if_neg (by simp [enabled, opens]),
    bind_returns state (attemptDrops_returns state),
    bind_returns _ (publishTables_returns _ _), if_pos dry]
  rfl

end PublishTarget

/-- A dry run writes nothing, for a table and for a target, exactly when it settles no pending
batch. -/
theorem dry_run_writes_nothing_iff (env : Environment) (state : State Store Access)
    (target : Target) :
    (∀ (call : PublishCall) (source : Source) (table : TableTarget), call.dryRun = true →
      ((∀ effect ∈ added state (publishTable env source call target table state).2,
          IsRead effect) ↔ ¬SettlesTable env call target table state.store)) ∧
    (∀ call : TargetCall, call.dryRun = true →
      ((∀ effect ∈ added state (publishTarget env call target state).2, IsRead effect) ↔
        ¬SettlesTarget env call target state.store)) := by
  refine ⟨fun call source table dry => ⟨fun reads settles => ?_, fun unsettled => ?_⟩,
    fun call dry => ⟨fun reads settles => ?_, fun unsettled => ?_⟩⟩
  · obtain ⟨effect, inside, writes⟩ := (publishTable_writes source settles).added
    exact writes (reads effect inside)
  · exact (publishTable_reads dry source unsettled).added
  · obtain ⟨enabled, opens, settled⟩ := settles
    have drops : Effects .apply IsRead state (attemptDrops env call target state).2 :=
      (reads_attemptDrops dry state).1
    rw [publishTarget_dry dry enabled opens] at reads
    rw [← drops.store_eq apply_of_isRead] at settled
    obtain ⟨effect, inside, writes⟩ :=
      (Adds.before drops (publishTables_writes dry _ settled)).added
    exact writes (reads effect inside)
  · by_cases open_ : target.enabled = true ∧ call.opens = true
    · obtain ⟨enabled, opens⟩ := open_
      have drops : Effects .apply IsRead state (attemptDrops env call target state).2 :=
      (reads_attemptDrops dry state).1
      rw [publishTarget_dry dry enabled opens]
      refine (drops.trans (publishTables_reads dry _ ?_)).added
      rw [drops.store_eq apply_of_isRead]
      exact fun entry inside settles => unsettled ⟨enabled, opens, entry, inside, settles⟩
    · have skipped : target.enabled = false ∨ call.opens = false := by
        cases enabled : target.enabled <;> cases opens : call.opens <;> simp_all
      rw [publishTarget, if_pos skipped]
      have nothing : Effects .apply IsRead state state := .refl state
      exact nothing.added

/-! ## Dry runs that write -/

/-- A table in snapshot mode. -/
def ledgerTable : TableTarget where
  name := "ledger"
  sourceTable := "dbo.ledger"
  targetTable := "ledger"
  keyColumn := "id"
  mode := some .snapshot

/-- The target of the table. -/
def ledgerTarget : Target where
  id := "finance"
  landingZoneRoot := "/landing"
  tables := [ledgerTable]

/-- The rows of the first batch. -/
def ledgerPayload : Payload := ⟨[[("id", .int 1)]], none⟩

/-- The state saved by a run that stopped before it landed its first batch. -/
def ledgerState (payloadPath : Option String) : PublishState where
  pending := some
    { prior := none, next := {}, path := ⟨"ledger", 1⟩, rowCount := 1, initial := true
      contentHash := Environment.readable.payloadDigest ledgerPayload
      payloadPath := payloadPath }

/-- The name of the state file. -/
def ledgerName : String := stateFilePath .readable ledgerTarget ledgerTable

/-- The run had landed its batch. -/
def ledgerLanded : State Store Access :=
  ⟨(({} : Store).apply (.wroteState ledgerName (.state (ledgerState none)))).apply
    (.landed ⟨"ledger", 1⟩ ledgerPayload), []⟩

/-- The run had kept the payload of its batch beside the state. -/
def ledgerPrepared : State Store Access :=
  let payloadName := pendingPayloadPath .readable ledgerTarget ledgerTable
  ⟨(({} : Store).apply (.wroteState payloadName (.payload ledgerPayload))).apply
    (.wroteState ledgerName (.state (ledgerState (some payloadName)))), []⟩

/-- A source that cannot be reached. -/
def lostSource : Source := ⟨.error "unreachable", fun _ => .error "unreachable"⟩

/-- A dry run commits a batch that has landed, and a dry run of the target lands a batch whose
payload was kept. -/
theorem dry_run_settles_pending :
    (publishTable .readable lostSource { dryRun := true } ledgerTarget ledgerTable
        ledgerLanded).2.store.files[ledgerName]? ≠ ledgerLanded.store.files[ledgerName]? ∧
      ledgerPrepared.store.batches = [] ∧
      (publishTarget .readable { dryRun := true, sources := fun _ => lostSource } ledgerTarget
        ledgerPrepared).2.store.batches = [(⟨"ledger", 1⟩, ledgerPayload)] := by
  refine ⟨by decide +kernel, by decide +kernel, by decide +kernel⟩

end ShortcutProxy.OpenMirror
