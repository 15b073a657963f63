import Mathlib

/-!
# Cleanup of the files that are ready to delete

`cleanup_target` lists the folder `_FilesReadyToDelete` of each table, directory by directory,
and only then deletes: first the files that are past the retention, and then, if it listed no
other file, the whole tree. Meanwhile the mirroring service moves files into the trees.

The removal of a tree takes what is there by then. Nothing that has to be kept is deleted as
long as every file that is moved in is known to be past the retention.
-/

namespace ShortcutProxy.MirrorCleanup

open List

/-- A file in the tree of a table: the directories below `_FilesReadyToDelete`, its name, and
the time of its modification if that is known. -/
structure File where
  directory : List String
  name : String
  modified : Option Int
deriving DecidableEq

def File.path (file : File) : List String × String := (file.directory, file.name)

/-- The files of a tree, one at each path. -/
structure Tree where
  files : List File
  distinct : (files.map File.path).Nodup

def Tree.filter (tree : Tree) (keep : File → Bool) : Tree :=
  ⟨tree.files.filter keep, tree.distinct.sublist (List.filter_sublist.map File.path)⟩

/-- A file is moved into the tree. -/
def Tree.put (tree : Tree) (file : File) : Tree where
  files := file :: (tree.filter fun other => other.path ≠ file.path).files
  distinct := List.nodup_cons.mpr ⟨by simp [Tree.filter], (tree.filter _).distinct⟩

/-- A table of the target: its folder, its retention in days, and the clock when it is
inspected, in seconds. -/
structure Table where
  folder : String
  retention : Int
  current : Int

/-- The modification time is known and not after the cutoff. -/
def Table.old (table : Table) (file : File) : Bool :=
  file.modified.any fun value => value ≤ table.current - table.retention * 86400

/-- The files that `list_entries` shows in a directory. -/
def Tree.filesIn (tree : Tree) (path : List String) : List File :=
  tree.files.filter fun file => file.directory = path

/-- The directories that it shows there. -/
def Tree.directoriesIn (tree : Tree) (path : List String) : List (List String) :=
  ((tree.files.filter fun file => path <+: file.directory ∧ file.directory ≠ path).map
    fun file => file.directory.take (path.length + 1)).dedup

inductive Kind where
  | delete (path : List String × String)
  | removeTree
  | verify

structure Action where
  table : Table
  kind : Kind

def Action.removes (action : Action) (file : File) : Bool :=
  match action.kind with
  | .delete path => file.path = path
  | .removeTree => true
  | .verify => false

/-- What `cleanup_target` does with a candidate. -/
def plan (table : Table) (files : List File) : List Action :=
  let eligible := files.filter table.old
  eligible.map (fun file => ⟨table, .delete file.path⟩) ++
    if eligible ≠ [] ∧ files.length - eligible.length = 0 then
      [⟨table, .removeTree⟩, ⟨table, .verify⟩] else []

/-- A call of `cleanup_target`: the trees by folder, the tables to come, the table that is
inspected with the directories to visit and the files found, the actions to come, and the files
deleted. -/
structure Cleanup where
  trees : String → Tree
  tables : List Table
  inspecting : Option (Table × List (List String) × List File) := none
  actions : List Action := []
  deleted : List (Table × File) := []

/-- The call ends with an error. -/
def Cleanup.fail (state : Cleanup) : Cleanup :=
  { state with tables := [], inspecting := none, actions := [] }

def Cleanup.perform (state : Cleanup) (action : Action) (rest : List Action) : Cleanup :=
  let tree := state.trees action.table.folder
  match action.kind with
  | .verify => if tree.files ≠ [] then state.fail else { state with actions := rest }
  | _ =>
    { state with
      trees := Function.update state.trees action.table.folder
        (tree.filter fun file => !action.removes file)
      actions := rest
      deleted := state.deleted ++ (tree.files.filter action.removes).map (action.table, ·) }

/-- One access of the call to the landing zone. -/
def Cleanup.advance (state : Cleanup) : Cleanup :=
  match state.inspecting, state.tables, state.actions with
  | some (table, path :: pending, files), _, _ =>
    let tree := state.trees table.folder
    { state with
      inspecting := some (table, tree.directoriesIn path ++ pending, files ++ tree.filesIn path) }
  | some (table, [], files), _, actions =>
    { state with inspecting := none, actions := actions ++ plan table files }
  | none, table :: tables, _ =>
    if table.retention < 0 then state.fail
    else { state with tables := tables, inspecting := some (table, [[]], []) }
  | none, [], action :: rest => state.perform action rest
  | none, [], [] => state

/-- The call goes on, or the mirroring service moves a file into a tree. -/
inductive Event where
  | advance
  | move (folder : String) (file : File)

def Cleanup.step (state : Cleanup) : Event → Cleanup
  | .advance => state.advance
  | .move folder file =>
    { state with trees := Function.update state.trees folder ((state.trees folder).put file) }

def run (tables : List Table) (trees : String → Tree) (events : List Event) : Cleanup :=
  events.foldl Cleanup.step { trees := trees, tables := tables }

/-- Every deleted file was known to be past the retention of the table. -/
def Cleanup.Spares (state : Cleanup) : Prop :=
  ∀ entry ∈ state.deleted, entry.1.old entry.2 = true

variable {path : List String} {file other : File} {tree : Tree}

/-- A file below a directory is listed, or below a directory that is. -/
theorem listed_or_below (member : file ∈ tree.files) (under : path <+: file.directory) :
    file ∈ tree.filesIn path ∨ ∃ next ∈ tree.directoriesIn path, next <+: file.directory := by
  by_cases here : file.directory = path
  · exact .inl (mem_filter.mpr ⟨member, decide_eq_true here⟩)
  · refine .inr ⟨_, mem_dedup.mpr (mem_map_of_mem ?_), take_prefix _ _⟩
    exact mem_filter.mpr ⟨member, decide_eq_true ⟨under, here⟩⟩

/-! ## What a call may delete -/

variable {table : Table} {pending : List (List String)} {files : List File}

/-- A file that is to be kept is in a directory still to be visited, or was found, and not
under another time. -/
def Inspects (tree : Tree) (table : Table) (pending : List (List String)) (files : List File) :
    Prop :=
  ∀ file ∈ tree.files, table.old file = false →
    (file ∈ files ∨ ∃ path ∈ pending, path <+: file.directory) ∧
      ∀ other ∈ files, other.path = file.path → table.old other = false

theorem Inspects.list (inspects : Inspects tree table (path :: pending) files) :
    Inspects tree table (tree.directoriesIn path ++ pending) (files ++ tree.filesIn path) := by
  intro file member young
  obtain ⟨found, sole⟩ := inspects file member young
  refine ⟨?_, fun other listed same => ?_⟩
  · rcases found with found | ⟨next, waits, under⟩
    · exact .inl (mem_append_left _ found)
    rcases mem_cons.mp waits with rfl | later
    · rcases listed_or_below member under with new | ⟨directory, new, below⟩
      · exact .inl (mem_append_right _ new)
      · exact .inr ⟨directory, mem_append_left _ new, below⟩
    · exact .inr ⟨next, mem_append_right _ later, under⟩
  · rcases mem_append.mp listed with earlier | new
    · exact sole other earlier same
    · -- The tree holds one file at the path.
      rw [inj_on_of_nodup_map tree.distinct (mem_filter.mp new).1 member same]
      exact young

/-- All that the action removes may be deleted. -/
def Action.Safe (trees : String → Tree) (action : Action) : Prop :=
  ∀ file ∈ (trees action.table.folder).files, action.removes file = true →
    action.table.old file = true

theorem plan_safe {trees : String → Tree}
    (inspects : Inspects (trees table.folder) table [] files) :
    ∀ action ∈ plan table files, action.table = table ∧ action.Safe trees := by
  intro action planned
  rcases mem_append.mp planned with deletes | removes
  · obtain ⟨other, eligible, rfl⟩ := mem_map.mp deletes
    obtain ⟨listed, aged⟩ := mem_filter.mp eligible
    refine ⟨rfl, fun file member same => ?_⟩
    by_contra young
    have left := (inspects file member (by simpa using young)).2 other listed
      (of_decide_eq_true same).symm
    simp [aged] at left
  · split at removes
    · next whole =>
      have short := length_filter_le table.old files
      have all : ∀ file ∈ files, table.old file = true :=
        length_filter_eq_length_iff.mp (by omega)
      rcases mem_pair.mp removes with rfl | rfl
      · refine ⟨rfl, fun file member _ => ?_⟩
        by_contra young
        obtain ⟨listed | ⟨_, waits, -⟩, -⟩ := inspects file member (by simpa using young)
        · exact young (all file listed)
        · cases waits
      · exact ⟨rfl, fun _ _ removed => by cases removed⟩
    · cases removes

/-- What holds of a call at each moment. -/
structure Sound (tables : List Table) (state : Cleanup) : Prop where
  selected : state.tables ⊆ tables
  inspecting : ∀ table pending files, state.inspecting = some (table, pending, files) →
    table ∈ tables ∧ Inspects (state.trees table.folder) table pending files
  actions : ∀ action ∈ state.actions, action.table ∈ tables ∧ action.Safe state.trees
  spares : state.Spares

variable {tables : List Table} {state : Cleanup}

/-- Files past the retention may come, and any may go. -/
theorem Sound.frame (sound : Sound tables state) {trees : String → Tree}
    (came : ∀ folder, ∀ file ∈ (trees folder).files, file ∈ (state.trees folder).files ∨
      ∀ table ∈ tables, table.folder = folder → table.old file = true) :
    Sound tables { state with trees := trees } where
  selected := sound.selected
  spares := sound.spares
  inspecting table pending files shape := by
    obtain ⟨selected, before⟩ := sound.inspecting table pending files shape
    refine ⟨selected, fun file member young => ?_⟩
    rcases came table.folder file member with earlier | expired
    · exact before file earlier young
    · simp [expired table selected rfl] at young
  actions action member := by
    obtain ⟨selected, before⟩ := sound.actions action member
    refine ⟨selected, fun file present removed => ?_⟩
    rcases came action.table.folder file present with earlier | expired
    · exact before file earlier removed
    · exact expired action.table selected rfl

theorem Sound.fail (sound : Sound tables state) : Sound tables state.fail where
  selected := by simp [Cleanup.fail]
  inspecting := by rintro _ _ _ ⟨⟩
  actions := by simp [Cleanup.fail]
  spares := sound.spares

theorem Sound.advance (sound : Sound tables state) : Sound tables state.advance := by
  unfold Cleanup.advance
  split
  · next table path pending files shape =>
    refine { sound with inspecting := ?_ }
    rintro _ _ _ ⟨⟩
    obtain ⟨selected, before⟩ := sound.inspecting _ _ _ shape
    exact ⟨selected, before.list⟩
  · next table files shape =>
    obtain ⟨selected, before⟩ := sound.inspecting _ _ _ shape
    refine { sound with inspecting := by rintro _ _ _ ⟨⟩, actions := fun action member => ?_ }
    rcases mem_append.mp member with earlier | planned
    · exact sound.actions action earlier
    · obtain ⟨rfl, safe⟩ := plan_safe before action planned
      exact ⟨selected, safe⟩
  · next table rest _ shape =>
    obtain ⟨selected, others⟩ := cons_subset.mp (shape ▸ sound.selected)
    split
    · exact sound.fail
    · refine { sound with selected := others, inspecting := ?_ }
      rintro _ _ _ ⟨⟩
      exact ⟨selected, fun file _ _ => ⟨.inr ⟨[], by simp⟩, by simp⟩⟩
  · next action rest _ _ shape =>
    obtain ⟨⟨selected, safe⟩, others⟩ := forall_mem_cons.mp (shape ▸ sound.actions)
    have later : Sound tables { state with actions := rest } := { sound with actions := others }
    unfold Cleanup.perform
    dsimp only
    split
    · split
      · exact sound.fail
      · exact later
    · refine { later.frame fun folder file member => .inl ?_ with spares := ?_ }
      · by_cases same : folder = action.table.folder
        · subst same
          rw [Function.update_self] at member
          exact (mem_filter.mp member).1
        · rwa [Function.update_of_ne same] at member
      · intro entry member
        rcases mem_append.mp member with earlier | now
        · exact sound.spares entry earlier
        · obtain ⟨file, removed, rfl⟩ := mem_map.mp now
          obtain ⟨present, removes⟩ := mem_filter.mp removed
          exact safe file present removes
  · exact sound

/-- As long as every file that is moved in is known to be past the retention of the tables of
its folder, no file is deleted that is not. -/
theorem run_spares (tables : List Table) (trees : String → Tree) (events : List Event)
    (expired : ∀ folder file, Event.move folder file ∈ events →
      ∀ table ∈ tables, table.folder = folder → table.old file = true) :
    (run tables trees events).Spares := by
  suffices sound : Sound tables (run tables trees events) from sound.spares
  refine List.foldlRecOn (motive := Sound tables) _ _
    ⟨.refl _, by rintro _ _ _ ⟨⟩, by simp, by simp [Cleanup.Spares]⟩ ?_
  intro state sound event member
  cases event with
  | advance => exact sound.advance
  | move folder file =>
    refine sound.frame fun other item present => ?_
    by_cases same : other = folder
    · subst same
      rw [Function.update_self] at present
      rcases mem_cons.mp present with rfl | earlier
      · exact .inr (expired other item member)
      · exact .inl (mem_filter.mp earlier).1
    · rw [Function.update_of_ne same] at present
      exact .inl present

/-- A tree with a file that is past the retention. -/
def oldTree : Tree := ⟨[⟨[], "1.parquet", some 0⟩], by simp⟩

/-- A file of a given time comes after the listing, and the tree is removed with it. -/
def lateArrival (modified : Option Int) : List Event :=
  [.advance, .advance, .advance, .move "orders" ⟨[], "2.parquet", modified⟩, .advance, .advance]

theorem late_arrival_deleted :
    ¬ (run [⟨"orders", 7, 1000000⟩] (fun _ => oldTree) (lateArrival (some 999999))).Spares := by
  unfold Cleanup.Spares
  decide +kernel

theorem late_arrival_expired :
    (run [⟨"orders", 7, 1000000⟩] (fun _ => oldTree) (lateArrival (some 5))).Spares :=
  run_spares _ _ _ (by simp [lateArrival]; decide)

end ShortcutProxy.MirrorCleanup
