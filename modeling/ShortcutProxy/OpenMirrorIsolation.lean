import ShortcutProxy.OpenMirrorTargets

/-!
# Tracking state of different tables

The state directory holds a state file for each table, perhaps a payload beside it, and a
record of published tables for each target. All are named by texts made of the parts of an
identity, where every character that is not alphanumeric becomes an underscore and the parts
are joined by underscores. An operation on one table stays away from the tracking state of
another as long as these names differ, and only then.

Saved payloads lie beside their state file in every state that operations reach, so a
recovery never follows a saved path to another table.
-/

namespace ShortcutProxy.OpenMirror

open Journaled Records Option

/-- What a table is known by. -/
structure Identity where
  target : String
  schema : String
  table : String
  deriving DecidableEq, Repr

/-- The identity of a configured table. -/
def identityOf (target : Target) (table : TableTarget) : Identity :=
  ⟨target.id, table.schema.getD "", table.targetTable⟩

section Names

variable (env : Environment) (identity : Identity)

/-- The name of the state file. -/
def Identity.stateName : String :=
  stateFileName env identity.target identity.schema identity.table

/-- The name of the payload beside the state file. -/
def Identity.payloadName : String := identity.stateName env ++ ".pending.parquet"

/-- The name of the record of published tables of the target. -/
def Identity.recordName : String := slug env identity.target ++ "__tables.json"

end Names

/-- The file of the state directory that an access reads, writes or deletes. -/
def Access.file : Access → Option String
  | .readState name => some name
  | .wroteState name _ => some name
  | .removedState name => some name
  | .landed _ _ => none
  | .wroteMetadata _ => none
  | .removedTree _ => none

variable (env : Environment) (history : List Operation)

/-- The access reads, writes or deletes tracking state of the table. -/
def Touches (identity : Identity) (effect : Access) : Prop :=
  effect.file = some (identity.stateName env) ∨ effect.file = some (identity.payloadName env)

/-! ## Operations -/

/-- The operations on one table. Publishing and dropping through `publish_target` also read
and write the record of the target. -/
inductive Operation where
  | publish (source : Source) (call : PublishCall) (target : Target) (table : TableTarget)
  | reset (target : Target) (table : TableTarget)
  | drop (removal : String → Removal) (target : Target) (schema targetTable : String)
  | loadRecord (target : Target)
  | saveRecord (target : Target)

namespace Operation

/-- What an operation does. -/
def program : Operation → Publish Unit
  | publish source call target table => do
    let _ ← publishTable env source call target table
    pure ()
  | reset target table => resetTable env target table
  | drop removal target schema targetTable => dropTable env removal target schema targetTable
  | loadRecord target => access (.readState (targetManifestPath env target))
  | saveRecord target =>
    access (.wroteState (targetManifestPath env target) (.tables (recordedTables target)))

/-- The state after an operation, whether it returned or raised. -/
def run (operation : Operation) (state : State Store Access) :
    State Store Access :=
  (operation.program env state).2

/-- The table that an operation is about. The record belongs to every table of the target. -/
def Concerns (identity : Identity) : Operation → Prop
  | publish _ _ target table => identityOf target table = identity
  | reset target table => identityOf target table = identity
  | drop _ target schema targetTable => ⟨target.id, schema, targetTable⟩ = identity
  | loadRecord target => target.id = identity.target
  | saveRecord target => target.id = identity.target

end Operation

/-- The target is one that the configuration loader accepts. -/
def Loads (target : Target) : Prop := ∃ raw, targetFromDict raw = .ok target

/-- The table is one of an accepted target. -/
def Configured (identity : Identity) : Prop :=
  ∃ target, Loads target ∧ ∃ table ∈ target.tables, identityOf target table = identity

/-- The operation is on accepted targets and tables. A dropped table was configured before. -/
def Operation.Accepted : Operation → Prop
  | publish _ _ target table => Loads target ∧ table ∈ target.tables
  | reset target table => Loads target ∧ table ∈ target.tables
  | drop _ target schema targetTable => Loads target ∧ Configured ⟨target.id, schema, targetTable⟩
  | loadRecord target => Loads target
  | saveRecord target => Loads target

/-- The state after operations on empty directories. -/
def afterOperations : State Store Access :=
  history.foldl (fun state operation => operation.run env state) ⟨{}, []⟩

/-! ## Payloads beside their state files -/

/-- The payload of a saved batch is the file beside the state file. -/
def Beside (name : String) (record : PublishState) : Prop :=
  ∀ pending path, record.pending = some pending → pending.payloadPath = some path →
    path = name ++ ".pending.parquet"

/-- Every saved batch has its payload beside its state file. -/
def PayloadsBeside (store : Store) : Prop :=
  ∀ name record, store.files[name]? = some (.state record) → Beside name record

/-- The access saves no batch with a payload elsewhere. -/
def KeepsBeside : Access → Prop
  | .wroteState name (.state record) => Beside name record
  | _ => True

theorem payloadsBeside_assign {store : Store} (beside : PayloadsBeside store) {name : String}
    {file : Option StateFile} (kept : ∀ record, file = some (.state record) → Beside name record) :
    PayloadsBeside { store with files := assign store.files name file } := by
  intro other record found
  rcases of_getElem?_assign found with ⟨rfl, written⟩ | ⟨_, earlier⟩
  · exact kept record written
  · exact beside other record earlier

theorem payloadsBeside_apply (store : Store) (effect : Access) (keeps : KeepsBeside effect)
    (beside : PayloadsBeside store) : PayloadsBeside (store.apply effect) := by
  cases effect with
  | readState name => exact beside
  | wroteState name file =>
    refine payloadsBeside_assign beside ?_
    rintro record ⟨⟩
    exact keeps
  | removedState name =>
    refine payloadsBeside_assign beside ?_
    rintro record ⟨⟩
  | landed | wroteMetadata | removedTree => exact beside

/-! ## What an operation touches -/

/-- The files of the state directory that an operation may touch. -/
def Operation.Names (name : String) : Operation → Prop
  | publish _ _ target table => name = (identityOf target table).stateName env ∨
      name = (identityOf target table).payloadName env
  | reset target table => name = (identityOf target table).stateName env
  | drop _ target schema targetTable => name = Identity.stateName env ⟨target.id, schema, targetTable⟩
  | loadRecord target => name = targetManifestPath env target
  | saveRecord target => name = targetManifestPath env target

/-- The accesses of an operation. -/
def Operation.Makes (operation : Operation) (effect : Access) : Prop :=
  KeepsBeside effect ∧ ∀ name, effect.file = some name → operation.Names env name

section Rules

variable {env : Environment} {operation : Operation} {name : String}

theorem Operation.makes_readState (names : operation.Names env name) :
    operation.Makes env (.readState name) :=
  ⟨trivial, fun _ found => some.inj found ▸ names⟩

theorem Operation.makes_removedState (names : operation.Names env name) :
    operation.Makes env (.removedState name) :=
  ⟨trivial, fun _ found => some.inj found ▸ names⟩

end Rules

/-- Data files anywhere, and only the payload beside the state file. -/
def besideScope (target : Target) (table : TableTarget) : Scope where
  lands _ := True
  payloads path := path = pendingPayloadPath env target table

variable {env : Environment}

variable {effect : Access}

/-- A call's own accesses touch its two files and save payloads beside the state. -/
theorem beside_of_own {call : PublishCall} {target : Target} {table : TableTarget}
    {lands : String → Prop}
    (own : Own (publicationOf env call target table)
      ⟨lands, (· = pendingPayloadPath env target table)⟩ effect) :
    KeepsBeside effect ∧ ∀ name, effect.file = some name →
      name = stateFilePath env target table ∨ name = pendingPayloadPath env target table := by
  cases effect with
  | readState name =>
    rw [Own, publicationOf_stateName] at own
    exact ⟨trivial, fun _ found => some.inj found ▸ own⟩
  | wroteState name file =>
    rw [Own, publicationOf_stateName] at own
    rcases own with ⟨named, record, written, owned⟩ | ⟨named, payload, written⟩
    · refine ⟨?_, fun _ found => some.inj found ▸ .inl named⟩
      subst written
      intro pending path saved prepared
      have beside : path = pendingPayloadPath env target table :=
        (owned pending saved).1 path prepared
      rw [beside, named, pendingPayloadPath]
    · subst written
      exact ⟨trivial, fun _ found => some.inj found ▸ .inr named⟩
  | removedState name => exact ⟨trivial, fun _ found => some.inj found ▸ .inr own⟩
  | landed | wroteMetadata => exact ⟨trivial, fun _ absent => by cases absent⟩
  | removedTree folder => exact own.elim

theorem getElem?_apply_of_file (store : Store) {name : String}
    (other : effect.file ≠ some name) : (store.apply effect).files[name]? = store.files[name]? := by
  cases effect with
  | wroteState | removedState =>
    exact (getElem?_assign ..).trans (if_neg fun same => other (congrArg some same))
  | _ => rfl

/-- A state that was loaded has its payload beside the state file. -/
theorem ownPending_of_beside {target : Target} {table : TableTarget} {store : Store}
    (beside : PayloadsBeside store) (record : PublishState)
    (loaded : (loadedState store.files[stateFilePath env target table]?).2 = some record) :
    OwnPending (besideScope env target table) record := by
  intro pending saved
  refine ⟨?_, trivial⟩
  intro path prepared
  exact beside _ record (file_of_loaded loaded saved) pending path saved prepared

/-- From a state whose payloads lie beside their state files, an operation touches its own
files and keeps payloads there. -/
theorem Operation.run_effects (env : Environment) (operation : Operation)
    (state : State Store Access) (beside : PayloadsBeside state.store) :
    Effects Store.apply (operation.Makes env) state (operation.run env state) := by
  cases operation with
  | publish source call target table =>
    have covers : (besideScope env target table).Covers (publicationOf env call target table) :=
      ⟨fun _ _ => trivial, publicationOf_payloadName env call target table⟩
    have own : Effects .apply
        (Own (publicationOf env call target table) (besideScope env target table))
        state (publishTable env source call target table state).2 :=
      publishTable_own covers source state (ownPending_of_beside beside)
    have made : Effects .apply
        ((Operation.publish source call target table).Makes env) state
        (publishTable env source call target table state).2 :=
      own.mono fun _ => beside_of_own
    rw [Operation.run, Operation.program, Program.bind_apply]
    split
    · next outcome => rwa [outcome] at made
    · next outcome => rwa [outcome] at made
  | reset target table =>
    have own : (Operation.reset target table).Names env (stateFilePath env target table) := by
      rw [Operation.Names, Identity.stateName, identityOf, stateFilePath]
    rw [Operation.run, Operation.program, resetTable]
    exact (Makes.andThen
      (.andThen (.perform (Operation.makes_readState own)) fun _ => .read _)
      (fun _ => .perform (Operation.makes_removedState own)) state).1
  | drop removal target schema targetTable =>
    have own : (Operation.drop removal target schema targetTable).Names env
        (stateFileName env target.id schema targetTable) := by
      rw [Operation.Names, Identity.stateName]
    rw [Operation.run, Operation.program, dropTable]
    cases tableRelativePath targetTable schema with
    | none => exact .refl state
    | some folder =>
      refine (Makes.andThen ?_ (fun _ => .perform (Operation.makes_removedState own)) state).1
      unfold removeTree
      split
      · exact .raise _
      · exact .pure trivial
      · exact .perform ⟨trivial, by rintro _ ⟨⟩⟩
  | loadRecord target =>
    have own : (Operation.loadRecord target).Names env (targetManifestPath env target) := by
      rw [Operation.Names]
    rw [Operation.run, Operation.program]
    exact (Makes.perform (Operation.makes_readState own) state).1
  | saveRecord target =>
    have own : (Operation.saveRecord target).Names env (targetManifestPath env target) := by
      rw [Operation.Names]
    have keeps : KeepsBeside (.wroteState (targetManifestPath env target)
        (.tables (recordedTables target))) := trivial
    rw [Operation.run, Operation.program]
    exact (Makes.perform ⟨keeps, fun _ found => some.inj found ▸ own⟩ state).1

/-- Payloads lie beside their state files after every history. -/
theorem afterOperations_beside (env : Environment) (history : List Operation) :
    PayloadsBeside (afterOperations env history).store := by
  induction history using List.reverseRecOn with
  | nil =>
    intro name record found
    simp [afterOperations] at found
  | append_singleton earlier operation ih =>
    rw [afterOperations, List.foldl_append]
    exact Effects.preserve (fun store effect made => payloadsBeside_apply store effect made.1)
      (operation.run_effects env _ ih) ih

/-! ## Names -/

/-- Texts with different last characters differ. -/
theorem append_ne_of_getLast (last final : Char) {first second ending other : String}
    (ends : ending.toList.getLast? = some last) (finishes : other.toList.getLast? = some final)
    (differ : last ≠ final) : first ++ ending ≠ second ++ other := by
  intro same
  have letters := congrArg (fun text => text.toList.getLast?) same
  simp only [String.toList_append, List.getLast?_append, ends, finishes, some_or,
    some.injEq] at letters
  exact differ letters

theorem stateName_ne_payloadName (env : Environment) (first second : Identity) :
    first.stateName env ≠ second.payloadName env :=
  append_ne_of_getLast 'n' 't' (by decide) (by decide) (by decide)

variable {first second : Identity}

theorem payloadName_inj
    (same : first.payloadName env = second.payloadName env) :
    first.stateName env = second.stateName env := by
  have letters := congrArg String.toList same
  simp only [Identity.payloadName, String.toList_append, List.append_cancel_right_eq] at letters
  exact String.toList_injective letters

/-- The names of an operation, by the table it is about. -/
theorem Operation.names_of_concerns {operation : Operation} {identity : Identity} {name : String}
    (about : operation.Concerns identity) (names : operation.Names env name) :
    name = identity.stateName env ∨ name = identity.payloadName env ∨
      name = identity.recordName env := by
  cases operation with
  | publish source call target table =>
    cases about
    rcases names with state | payload
    · exact .inl state
    · exact .inr (.inl payload)
  | reset | drop =>
    cases about
    exact .inl names
  | loadRecord | saveRecord =>
    refine .inr (.inr (names.trans ?_))
    rw [Identity.recordName, ← about, targetManifestPath]

/-- Names of one table are not names of another whose state file is called differently. -/
theorem not_touches (stateDiffers : second.stateName env ≠ first.stateName env)
    (recordDiffers : second.stateName env ≠ first.recordName env)
    (names : ∀ name, effect.file = some name → name = first.stateName env ∨
      name = first.payloadName env ∨ name = first.recordName env) : ¬Touches env second effect := by
  rintro (state | payload)
  · rcases names _ state with same | same | same
    · exact stateDiffers same
    · exact stateName_ne_payloadName env second first same
    · exact recordDiffers same
  · rcases names _ payload with same | same | same
    · exact stateName_ne_payloadName env first second same.symm
    · exact stateDiffers (payloadName_inj same)
    · exact append_ne_of_getLast 'n' 't' (by decide) (by decide) (by decide) same.symm

/-! ## Isolation -/

/-- The accesses that an operation makes after a history. -/
def accessesOf (env : Environment) (history : List Operation) (operation : Operation) :
    List Access :=
  added (afterOperations env history) (operation.run env (afterOperations env history))

/-- Operations on the first table never touch tracking state of the second. -/
def Isolated (env : Environment) (first second : Identity) : Prop :=
  ∀ history operation, (∀ earlier ∈ history, Operation.Accepted earlier) → operation.Accepted →
    operation.Concerns first → ∀ effect ∈ accessesOf env history operation,
      ¬Touches env second effect

theorem isolated_of_names
    (stateDiffers : second.stateName env ≠ first.stateName env)
    (recordDiffers : second.stateName env ≠ first.recordName env) : Isolated env first second := by
  intro history operation _ _ about effect made
  have effects := operation.run_effects env _ (afterOperations_beside env history)
  have names := (effects.added effect made).2
  refine not_touches stateDiffers recordDiffers ?_
  intro name found
  exact Operation.names_of_concerns about (names name found)

/-- A reset reads the state file of its table. -/
theorem readState_mem_reset (env : Environment) (history : List Operation) (target : Target)
    (table : TableTarget) :
    .readState ((identityOf target table).stateName env) ∈
      accessesOf env history (.reset target table) := by
  have made : (Operation.reset target table).run env (afterOperations env history) =
      (afterOperations env history).performAll .apply
        [.readState (stateFilePath env target table),
          .removedState (stateFilePath env target table)] := rfl
  rw [accessesOf, made, added_performAll]
  exact List.mem_cons_self

theorem readState_mem_loadRecord (env : Environment) (history : List Operation) (target : Target) :
    .readState (targetManifestPath env target) ∈
      accessesOf env history (.loadRecord target) := by
  have made : (Operation.loadRecord target).run env (afterOperations env history) =
      (afterOperations env history).performAll .apply
        [.readState (targetManifestPath env target)] := rfl
  rw [accessesOf, made, added_performAll]
  exact List.mem_cons_self

/-- Operations on one configured table stay away from the tracking state of another exactly
when its state file is called neither like the first state file nor like the record of the
first target. -/
theorem isolated_iff_names_differ (env : Environment) (first second : Identity)
    (configured : Configured first) :
    Isolated env first second ↔
      second.stateName env ≠ first.stateName env ∧
        second.stateName env ≠ first.recordName env := by
  obtain ⟨target, loads, table, inside, rfl⟩ := configured
  refine ⟨fun isolated => ⟨fun same => ?_, fun same => ?_⟩, fun differ => ?_⟩
  · -- the reset of the first table reads the shared state file
    have read := readState_mem_reset env [] target table
    refine isolated [] (.reset target table) (by simp) ⟨loads, inside⟩ rfl _ read (.inl ?_)
    rw [Access.file, same]
  · -- the record of the first target is the state file of the second table
    have read := readState_mem_loadRecord env [] target
    refine isolated [] (.loadRecord target) (by simp) loads rfl _ read (.inl ?_)
    rw [Access.file, same]
    rfl
  · exact isolated_of_names differ.1 differ.2

/-- A target with one table, as configured. -/
def rawSales (id table : String) : RawTarget where
  id := some id
  landingZoneRoot := some "/landing"
  tables := [{ name := some table, sourceTable := some "dbo.sales", keyColumn := some "id"
               schema := some "dbo", mode := some "snapshot" }]

/-- The table that the loader makes of it. -/
def salesTable (table : String) : TableTarget where
  name := table
  sourceTable := "dbo.sales"
  targetTable := table
  keyColumn := "id"
  schema := some "dbo"
  mode := some .snapshot

/-- The target that the loader makes of it. -/
def salesTarget (id table : String) : Target where
  id := id
  landingZoneRoot := "/landing"
  tables := [salesTable table]

theorem isolated_orders_customers :
    Configured ⟨"sales", "dbo", "orders"⟩ ∧
      Isolated .readable ⟨"sales", "dbo", "orders"⟩ ⟨"sales", "dbo", "customers"⟩ := by
  have configured : Configured ⟨"sales", "dbo", "orders"⟩ :=
    ⟨salesTarget "sales" "orders", ⟨rawSales "sales" "orders", by decide +kernel⟩,
      salesTable "orders", List.mem_singleton.mpr rfl, rfl⟩
  exact ⟨configured, (isolated_iff_names_differ _ _ _ configured).mpr
    ⟨by decide +kernel, by decide +kernel⟩⟩

/-- One row of the source table. -/
def salesSource : Source where
  projection := .ok { columns := ["id"], control := [], fingerprint := "f", randomTokens := false }
  content _ := .ok [[("id", .int 1)]]

/-- Resetting a table of target `sales_eu` deletes the state that publishing the table of
target `sales-eu` had saved. -/
theorem reset_deletes_other_state :
    loadTargets [rawSales "sales-eu" "orders", rawSales "sales_eu" "orders"] =
        [salesTarget "sales-eu" "orders", salesTarget "sales_eu" "orders"] ∧
      identityOf (salesTarget "sales-eu" "orders") (salesTable "orders") ≠
        identityOf (salesTarget "sales_eu" "orders") (salesTable "orders") ∧
      (let saved := afterOperations .readable
        [.publish salesSource {} (salesTarget "sales-eu" "orders") (salesTable "orders")]
       let name := Identity.stateName .readable ⟨"sales-eu", "dbo", "orders"⟩
       saved.store.files[name]?.isSome = true ∧
        ((Operation.reset (salesTarget "sales_eu" "orders") (salesTable "orders")).run
          .readable saved).store.files[name]?.isSome = false) := by
  refine ⟨by decide +kernel, by decide +kernel, by decide +kernel, by decide +kernel⟩

end ShortcutProxy.OpenMirror
