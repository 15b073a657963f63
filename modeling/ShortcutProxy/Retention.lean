import ShortcutProxy.SnapshotRegistry
import ShortcutProxy.Staging

/-!
# Collecting orphaned data files

`enterprise/retention.py` deletes the data files in the shared store that no
retained snapshot references. The retained snapshots are those in the memory of the
sweeping process, read once before the store is listed. The other Agents and the
Manager keep registering snapshots, claiming tasks and publishing while the sweep
goes through the listing.

A cluster is the shared store with the queue that lives in it, the registry of each
process, and the sweeps in progress. Every action makes one access to the store or
one change to a registry, so all interleavings are runs. A sweep deletes an object
in use exactly when it reaches a collectible one that its process did not reference
when the sweep began.
-/

namespace ShortcutProxy.Retention

open Contract Records TableMetadata SnapshotRegistry WorkQueue

/-! ## The sweep -/

/-- The keys of one snapshot that `live_object_keys` collects. -/
def snapshotKeys (snap : SnapshotState) : List String :=
  ([snap.metadataKey, snap.manifestListKey, snap.manifestFileKey, snap.versionHintKey].filter
    (· ≠ "")) ++ snap.splits.map SplitDescriptor.objectKey

/-- `live_object_keys`, for the snapshots that `get_all_snapshots` returned. -/
def liveObjectKeys (retained : List SnapshotState) : List String := retained.flatMap snapshotKeys

/-- Only data files are collected: the key has `/data/` in it and ends in `.parquet`. -/
def collectible (key : String) : Bool :=
  "/data/".toList <:+: key.toList ∧ ".parquet".toList <:+ key.toList

/-- A call of `gc_orphaned_data` in progress: the snapshots registered in its
process when it began, its arguments, the listed keys still to be examined once the
store has been listed, and the orphans so far. -/
structure Sweep where
  retained : List SnapshotState
  range : String
  dryRun : Bool
  remaining : Option (List String) := none
  orphans : List String := []

/-- The sweep treats this key as an orphan. -/
def Sweep.orphaned (sweep : Sweep) (key : String) : Bool :=
  collectible key ∧ key ∉ liveObjectKeys sweep.retained

/-- The shared store, the registries of the processes, the sweeps in progress and
the results of the finished ones. -/
structure Cluster (ι : Type) where
  queue : QueueState
  registries : ι → Registry
  sweeps : List Sweep := []
  reports : List (List String) := []

/-- A step of the cluster. The store access of an advancing sweep may fail. -/
inductive Action (ι : Type) where
  | operate (operation : Operation)
  | change (process : ι) (change : Change)
  | startSweep (process : ι) (range : String) (dryRun : Bool)
  | advance (index : Nat) (now : Int) (fails : Bool)

section Steps

variable {ι : Type}

/-- One access of `gc_orphaned_data` to the store: the listing first, then one listed
object after the other. A failed listing ends the sweep, a failed deletion does not. -/
def Sweep.advance (sweep : Sweep) (fails : Bool) (queue : QueueState) :
    Option Sweep × QueueState :=
  match sweep.remaining with
  | none =>
    if fails then (none, queue)
    else (some { sweep with remaining := some (queue.store.objectsUnder sweep.range) }, queue)
  | some [] => (none, queue)
  | some (key :: rest) =>
    if sweep.orphaned key then
      (some { sweep with remaining := some rest, orphans := key :: sweep.orphans },
        if sweep.dryRun || fails then queue else queue.perform .outside (.object key none))
    else (some { sweep with remaining := some rest }, queue)

/-- What a sweep that ends here returns. -/
def Sweep.report (sweep : Sweep) (fails : Bool) : List String :=
  if sweep.remaining.isNone && fails then [] else sweep.orphans.mergeSort

/-- The cluster after one action. -/
def Cluster.step [DecidableEq ι] (env : Environment) (settings : Settings)
    (cluster : Cluster ι) : Action ι → Cluster ι
  | .operate operation =>
    { cluster with queue := execute env settings cluster.queue operation }
  | .change process change =>
    let changed := (cluster.registries process).apply change
    { cluster with registries := Function.update cluster.registries process changed }
  | .startSweep process range dryRun =>
    let sweep : Sweep := {
      retained := getAllSnapshots (cluster.registries process)
      range := range
      dryRun := dryRun }
    { cluster with sweeps := cluster.sweeps ++ [sweep] }
  | .advance index _ fails =>
    match cluster.sweeps[index]? with
    | none => cluster
    | some sweep =>
      let next := sweep.advance fails cluster.queue
      { cluster with
        queue := next.2
        sweeps := continueAt cluster.sweeps index next.1
        reports := if next.1.isNone then sweep.report fails :: cluster.reports
          else cluster.reports }

/-- The cluster after a list of actions. -/
def run [DecidableEq ι] (env : Environment) (settings : Settings) (start : Cluster ι)
    (actions : List (Action ι)) : Cluster ι :=
  actions.foldl (.step env settings) start

/-! ## Objects in use -/

/-- The staging keys of the claims that have not run out at this time. -/
def liveClaimOutputs (store : Store) (now : Int) : List String :=
  (listing store.tasks).filterMap fun task =>
    match task.claim with
    | some claim =>
      if task.state = .claimed ∧ now < claim.expiresAtMs then some claim.stagingKey else none
    | none => none

/-- The keys of a registered snapshot, with the names its splits had before they were
published. -/
def ownedKeys (snap : SnapshotState) : List String :=
  snapshotKeys snap ++ snap.splits.filterMap SplitDescriptor.canonicalObjectKey

/-- A published manifest lists the object, it is the output of a live claim or of an
accepted and unpublished result, or it belongs to a snapshot registered somewhere. -/
def Cluster.InUse (cluster : Cluster ι) (now : Int) (key : String) : Prop :=
  key ∈ cluster.queue.store.inUse ∨ key ∈ liveClaimOutputs cluster.queue.store now ∨
    ∃ process, key ∈ (getAllSnapshots (cluster.registries process)).flatMap ownedKeys

/-- A step of a sweep leaves every object in use as it is. -/
def Cluster.Spares [DecidableEq ι] (env : Environment) (settings : Settings)
    (cluster : Cluster ι) : Action ι → Prop
  | .advance index now fails => ∀ key, cluster.InUse now key →
      (cluster.step env settings (.advance index now fails)).queue.store.objects[key]? =
        cluster.queue.store.objects[key]?
  | _ => True

/-- When a sweep reaches a stored, collectible object that is in use, and may delete,
the process of the sweep already referenced the object when the sweep began. -/
def Cluster.Referenced (cluster : Cluster ι) : Action ι → Prop
  | .advance index now fails => ∀ sweep key rest, cluster.sweeps[index]? = some sweep →
      sweep.remaining = some (key :: rest) → sweep.dryRun = false → fails = false →
      key ∈ cluster.queue.store.objects → collectible key = true → cluster.InUse now key →
      key ∈ liveObjectKeys sweep.retained
  | _ => True

end Steps

/-! ## What a sweep deletes -/

/-- The object that the next step of a sweep deletes, if it deletes one. -/
def Sweep.deletes (sweep : Sweep) (fails : Bool) : Option String :=
  match sweep.remaining with
  | some (key :: _) =>
    if sweep.orphaned key ∧ sweep.dryRun = false ∧ fails = false then some key else none
  | _ => none

/-- A step of a sweep removes that object and changes no other. -/
theorem Sweep.advance_objects (sweep : Sweep) (fails : Bool) (queue : QueueState) (key : String) :
    (sweep.advance fails queue).2.store.objects[key]? =
      if sweep.deletes fails = some key then none else queue.store.objects[key]? := by
  unfold Sweep.advance Sweep.deletes
  rcases sweep.remaining with _ | _ | ⟨first, rest⟩
  · cases fails <;> simp
  · simp
  · by_cases orphan : sweep.orphaned first = true
    · cases dry : sweep.dryRun <;> cases fails <;>
        simp [orphan, Store.apply, getElem?_assign]
    · simp [orphan]

/-- A deleted object heads the listing, is collectible, and was not referenced when
the sweep began. -/
theorem Sweep.deletes_eq_some {sweep : Sweep} {fails : Bool} {key : String} :
    sweep.deletes fails = some key ↔ (∃ rest, sweep.remaining = some (key :: rest)) ∧
      sweep.dryRun = false ∧ fails = false ∧ collectible key = true ∧
        key ∉ liveObjectKeys sweep.retained := by
  unfold Sweep.deletes
  split
  · next first rest listed =>
    constructor
    · intro deleted
      split at deleted
      · next condition =>
        obtain rfl : first = key := Option.some.inj deleted
        obtain ⟨orphan, wet, succeeds⟩ := condition
        have unreferenced : collectible first = true ∧
            first ∉ liveObjectKeys sweep.retained := by
          simpa [Sweep.orphaned] using orphan
        exact ⟨⟨rest, listed⟩, wet, succeeds, unreferenced⟩
      · cases deleted
    · rintro ⟨⟨others, same⟩, wet, succeeds, data, unreferenced⟩
      obtain ⟨rfl, rfl⟩ : first = key ∧ rest = others := by simpa [listed] using same
      simp [Sweep.orphaned, wet, succeeds, data, unreferenced]
  · next unlisted =>
    constructor
    · rintro ⟨⟩
    · rintro ⟨⟨rest, listed⟩, _⟩
      exact absurd listed (unlisted key rest)

section Runs

variable {ι : Type} [DecidableEq ι] {env : Environment} {settings : Settings}

/-- One step spares what is in use exactly when it was referenced. -/
theorem Cluster.spares_iff (cluster : Cluster ι) (action : Action ι) :
    cluster.Spares env settings action ↔ cluster.Referenced action := by
  cases action with
  | advance index now fails =>
    simp only [Cluster.Spares, Cluster.Referenced, Cluster.step]
    constructor
    · intro spares sweep key rest found listed wet succeeds stored data used
      by_contra unreferenced
      have kept := spares key used
      have deleted : sweep.deletes fails = some key :=
        Sweep.deletes_eq_some.mpr ⟨⟨rest, listed⟩, wet, succeeds, data, unreferenced⟩
      rw [found] at kept
      simp only [Sweep.advance_objects, deleted, if_true] at kept
      rw [← Std.ExtTreeMap.isSome_getElem?_iff_mem, ← kept] at stored
      cases stored
    · intro referenced key used
      split
      · rfl
      · next sweep found =>
        simp only [Sweep.advance_objects]
        split
        · next deleted =>
          obtain ⟨⟨rest, listed⟩, wet, succeeds, data, unreferenced⟩ :=
            Sweep.deletes_eq_some.mp deleted
          by_contra differs
          refine unreferenced (referenced sweep key rest found listed wet succeeds ?_ data used)
          rw [← Std.ExtTreeMap.isSome_getElem?_iff_mem, Option.isSome_iff_ne_none]
          exact fun absent => differs absent.symm
        · rfl
  | _ => exact .rfl

/-- Along every run, from any store and any registries, no sweep deletes an object
that is in use at that moment if and only if every sweep, whenever it reaches one, is
made by a process that referenced it when the sweep began. -/
theorem run_spares_iff (env : Environment) (settings : Settings) (start : Cluster ι)
    (actions : List (Action ι)) :
    (∀ earlier action later, actions = earlier ++ action :: later →
        (run env settings start earlier).Spares env settings action) ↔
      ∀ earlier action later, actions = earlier ++ action :: later →
        (run env settings start earlier).Referenced action :=
  forall₃_congr fun earlier action _ =>
    imp_congr_right fun _ => (run env settings start earlier).spares_iff action

end Runs

/-! ## Sweeps that delete objects in use

The Agent of shard 0 sweeps the store. In the first run the Manager's queue has
published an output that the Agent never registered. In the second one the Agent
publishes a refreshed snapshot after its sweep has read the registry. -/

/-- A task whose output lies in a data directory. -/
def dataTask : MaterializeTask := { smallTask 1 with outputKey := "t/data/0" }

/-- The request for that task. -/
def dataRequest : CreateCall := { smallRequest 1 "g" 1 with tasks := [dataTask] }

/-- Where its first claim puts the output. -/
def dataOutput : String := firstOutputKey .transparent dataRequest dataTask "a"

/-- The queue finishes and publishes the request, and an Agent sweeps up to the
output. -/
def sweepOfPublished : List (Action Bool) :=
  ((finishing .transparent dataRequest dataTask "a" [7] ++
    [Operation.publishSnapshot (Environment.transparent.hash dataRequest.identity)
      (finishedManifest .transparent dataRequest dataTask "a" [7]) 1001]).map .operate) ++
    [.startSweep false "t" false, .advance 0 1002 false]

/-- A refreshed snapshot with one data file. -/
def refreshed : SnapshotState where
  name := "t"
  tablePath := "t"
  snapshotId := 5
  manifestListKey := "l"
  manifestFileKey := "f"
  metadataKey := "m"
  versionHintKey := "h"
  splits := [{ splitIndex := 0, objectKey := "t/data/5.parquet" }]

/-- An Agent stores a refreshed data file and starts to sweep before it registers the
snapshot. -/
def sweepOfRefreshed : List (Action Bool) :=
  [.operate (.changeObject "t/data/5.parquet" (some [7])), .startSweep false "t" false,
    .change false (.publish 3 refreshed), .advance 0 1002 false]

/-- The cluster that both runs start from: an empty store and no snapshots. -/
def emptyCluster : Cluster Bool where
  queue := {}
  registries := fun _ => {}

theorem sweep_deletes_inUse :
    (dataOutput ∈ (run .transparent (.clamped 60 3 1 60) emptyCluster
        sweepOfPublished).queue.store.publishedSplits ∧
      dataOutput ∈ (run .transparent (.clamped 60 3 1 60) emptyCluster
        sweepOfPublished).queue.store.objects ∧
      dataOutput ∉ (run .transparent (.clamped 60 3 1 60) emptyCluster
        (sweepOfPublished ++ [.advance 0 1003 false])).queue.store.objects) ∧
    "t/data/5.parquet" ∈ (getAllSnapshots ((run .transparent (.clamped 60 3 1 60) emptyCluster
        sweepOfRefreshed).registries false)).flatMap ownedKeys ∧
      "t/data/5.parquet" ∈ (run .transparent (.clamped 60 3 1 60) emptyCluster
        sweepOfRefreshed).queue.store.objects ∧
      "t/data/5.parquet" ∉ (run .transparent (.clamped 60 3 1 60) emptyCluster
        (sweepOfRefreshed ++ [.advance 0 1003 false])).queue.store.objects := by
  decide +kernel

end ShortcutProxy.Retention
