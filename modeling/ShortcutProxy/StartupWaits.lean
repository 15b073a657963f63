import ShortcutProxy.SnapshotPlanning

/-!
# Waiting for other shards at startup

Each shard materializes the splits of its tables one after the other. It generates a split
that it owns, and polls for the completion of any other. The coordinator goes through the
tables in the order of its configuration, and the workers in the order of the published
plans. If both orders are the same, the waits follow one order over all splits, so they
cannot form a cycle.

The shards serve from an artifact store and the read-point provider is distributed, so
ownership goes by the weighted assignment, with the split index as fallback. A wait can time
out at any time.
-/
namespace ShortcutProxy.SnapshotPlanning

open Generation List

/-- A split of a planned table. -/
structure Split where
  tableId : String
  splitIndex : Nat
  deriving DecidableEq, Repr, Inhabited

/-- What the shards start from: the plans in the orders of the coordinator's and of the
workers' snapshots, and the completions that are already published. -/
structure Startup where
  shardCount : Nat
  assignment : Split → Option Nat
  quarantineFailedTables : Bool
  coordinatorPlans : List TableReadPlan
  workerPlans : List TableReadPlan
  published : List Split

variable (startup : Startup) (shards : Shards)

/-- `_owns_split`. -/
def Startup.ownsSplit (shard : Nat) (split : Split) : Bool :=
  startup.shardCount ≤ 1 ∨
    (startup.assignment split).getD (split.splitIndex % startup.shardCount) = shard

/-- The splits of the planned tables, table by table. -/
def tableSplits (plans : List TableReadPlan) : List (List Split) :=
  plans.map fun plan => (List.range plan.splitCount.toNat).map (.mk plan.tableId)

/-- The completions in the store, and what each shard has still to do. -/
structure Shards where
  completed : List Split
  remaining : Nat → List (List Split)

/-- The shards before their loops. Shard 0 is the coordinator. -/
def Startup.initial : Shards where
  completed := startup.published
  remaining shard :=
    tableSplits (if shard = 0 then startup.coordinatorPlans else startup.workerPlans)

/-- A shard goes on, or gives up waiting. -/
inductive Action where
  | advance (shard : Nat)
  | timeOut (shard : Nat)
  deriving DecidableEq, Repr

/-- The shard's work after a step. -/
def Shards.proceed (shard : Nat) (rest : List (List Split)) : Shards :=
  { shards with remaining := Function.update shards.remaining shard rest }

/-- One step of a shard's loop. A wait that times out fails the table: the table is
quarantined, or the startup of the shard fails. -/
def Shards.step : Action → Shards
  | .advance shard =>
    match shards.remaining shard with
    | [] => shards
    | [] :: tables => shards.proceed shard tables
    | (split :: rest) :: tables =>
      if startup.ownsSplit shard split then
        { shards.proceed shard (rest :: tables) with completed := split :: shards.completed }
      else if split ∈ shards.completed then shards.proceed shard (rest :: tables)
      else shards
  | .timeOut shard =>
    match shards.remaining shard with
    | (split :: _) :: tables =>
      if startup.ownsSplit shard split then shards
      else shards.proceed shard (if startup.quarantineFailedTables then tables else [])
    | _ => shards

/-- The shards after some steps. -/
def Startup.run (actions : List Action) : Shards :=
  actions.foldl (.step startup) startup.initial

/-- The shard polls for the completion of a split. -/
def Shards.WaitsFor (shard : Nat) (split : Split) : Prop :=
  (∃ rest tables, shards.remaining shard = (split :: rest) :: tables) ∧
    startup.ownsSplit shard split = false ∧ split ∉ shards.completed

/-- Each shard of the set waits for a split of another shard of the set. -/
def Shards.Cyclic (waiting : Set Nat) : Prop :=
  waiting.Nonempty ∧ ∀ shard ∈ waiting, ∃ split, shards.WaitsFor startup shard split ∧
    ∃ other ∈ waiting, other ≠ shard ∧ startup.ownsSplit other split = true

/-! ## One order of all splits -/

section OneOrder

variable {startup : Startup} {order : List Split} {shards : Shards} {shard : Nat}

/-- A shard is out of its loop, or it has gone through a part of the order and completed
what it owns there. -/
def OnTrack (startup : Startup) (order : List Split) (shards : Shards) (shard : Nat) : Prop :=
  shards.remaining shard = [] ∨
    ∃ done, done ++ (shards.remaining shard).flatten = order ∧
      ∀ split ∈ done, startup.ownsSplit shard split = true → split ∈ shards.completed

section

variable (onTrack : OnTrack startup order shards shard)
include onTrack

/-- Steps of other shards only add completions. -/
theorem OnTrack.of_same {after : Shards} (same : after.remaining shard = shards.remaining shard)
    (grows : shards.completed ⊆ after.completed) : OnTrack startup order after shard := by
  unfold OnTrack
  rw [same]
  exact onTrack.imp_right fun ⟨done, covers, owned⟩ =>
    ⟨done, covers, fun split inside owns => grows (owned split inside owns)⟩

/-- A shard that has dealt with its next split is still on track. -/
theorem OnTrack.next {split : Split} {rest : List Split} {tables : List (List Split)}
    {completed : List Split} (at_ : shards.remaining shard = (split :: rest) :: tables)
    (grows : shards.completed ⊆ completed) (inside : split ∈ completed) :
    OnTrack startup order { shards.proceed shard (rest :: tables) with completed := completed }
      shard := by
  rcases onTrack with out | ⟨done, covers, owned⟩
  · rw [at_] at out
    cases out
  · refine .inr ⟨done ++ [split], ?_, fun other member owns => ?_⟩
    · rw [at_] at covers
      simpa [Shards.proceed] using covers
    · rcases mem_append.mp member with earlier | last
      · exact grows (owned other earlier owns)
      · exact mem_singleton.mp last ▸ inside

theorem OnTrack.step (action : Action)
    (settled : ∀ other, action = .timeOut other → startup.quarantineFailedTables = false) :
    OnTrack startup order (shards.step startup action) shard := by
  cases action with
  | advance acting =>
    simp only [Shards.step]
    split
    · exact onTrack
    · next tables at_ =>
      by_cases same : shard = acting
      · subst same
        rcases onTrack with out | ⟨done, covers, owned⟩
        · rw [at_] at out
          cases out
        · rw [at_] at covers
          refine .inr ⟨done, ?_, owned⟩
          simpa [Shards.proceed] using covers
      · exact onTrack.of_same (Function.update_of_ne same _ _) (.refl _)
    · next next rest tables at_ =>
      by_cases same : shard = acting
      · subst same
        split
        · exact onTrack.next at_ (subset_cons_self _ _) mem_cons_self
        · split
          · next completed => exact onTrack.next at_ (.refl _) completed
          · exact onTrack
      · split
        · exact onTrack.of_same (Function.update_of_ne same _ _) (subset_cons_self _ _)
        · split
          · exact onTrack.of_same (Function.update_of_ne same _ _) (List.Subset.refl _)
          · exact onTrack
  | timeOut acting =>
    have stops : startup.quarantineFailedTables = false := settled acting rfl
    simp only [Shards.step, stops]
    split
    · split
      · exact onTrack
      · by_cases same : shard = acting
        · subst same
          exact .inl (Function.update_self _ _ _)
        · exact onTrack.of_same (Function.update_of_ne same _ _) (List.Subset.refl _)
    · exact onTrack

/-- A waiting shard stands at its split in the order. -/
theorem OnTrack.waiting {split : Split} (waits : shards.WaitsFor startup shard split) :
    ∃ done rest, order = done ++ split :: rest ∧
      ∀ earlier ∈ done, startup.ownsSplit shard earlier = true → earlier ∈ shards.completed := by
  obtain ⟨⟨rest, tables, at_⟩, -, -⟩ := waits
  rcases onTrack with out | ⟨done, covers, owned⟩
  · rw [at_] at out
    cases out
  · rw [at_] at covers
    exact ⟨done, rest ++ tables.flatten, covers.symm, owned⟩

end

/-- The shard of the set that is furthest behind waits for a split which its owner has
already passed. -/
theorem not_cyclic (onTrack : ∀ shard, OnTrack startup order shards shard) (waiting : Set Nat) :
    ¬shards.Cyclic startup waiting := by
  rintro ⟨nonempty, closed⟩
  choose! split waits other member different owns using closed
  choose! done rest place owned using fun shard inside =>
    (onTrack shard).waiting (waits shard inside)
  obtain ⟨shard, inside, least⟩ := WellFounded.has_min
    (InvImage.wf (fun shard => (done shard).length) Nat.lt_wfRel.wf) waiting nonempty
  have behind : (done shard).length ≤ (done (other shard)).length :=
    Nat.le_of_not_lt (least (other shard) (member shard inside))
  have here : order[(done shard).length]? = some (split shard) := by
    rw [place shard inside]
    simp
  rw [place (other shard) (member shard inside)] at here
  rcases Nat.lt_or_eq_of_le behind with passed | level
  · -- the owner has passed the split and would have completed it
    rw [getElem?_append_left passed] at here
    exact (waits shard inside).2.2 (owned (other shard) (member shard inside) _
      (mem_of_getElem? here) (owns shard inside))
  · -- the owner would wait for a split that it generates
    rw [level, getElem?_append_right (Nat.le_refl _), Nat.sub_self] at here
    have same : split (other shard) = split shard := Option.some.inj here
    have foreign := (waits (other shard) (member shard inside)).2.1
    rw [same, owns shard inside] at foreign
    cases foreign

end OneOrder

/-! ## The order of the plans -/

theorem prepareTables_plans (tables : List (TableDef × TableAnswers)) (preparation : Preparation)
    (finished : (prepareTables preparation tables).2 = none) :
    (prepareTables preparation tables).1.plans.map TableReadPlan.tableId =
      preparation.plans.map TableReadPlan.tableId ++ tables.map fun entry => tableReadId entry.1 := by
  induction tables generalizing preparation with
  | nil => exact (append_nil _).symm
  | cons entry rest ih =>
    obtain ⟨table, validated, acquired, planned⟩ := entry
    match validated, acquired, planned with
    | .error _, _, _ => cases finished
    | .ok (), .error _, _ => cases finished
    | .ok (), .ok _, .error _ => cases finished
    | .ok (), .ok _, .ok _ =>
      refine (ih _ finished).trans ?_
      rw [map_append, append_assoc]
      rfl

theorem publishPlans_tablePlans {digest : List TableReadPlan → String}
    {context ready : GenerationContext} {plans : List TableReadPlan} {answers : PublicationAnswers}
    (published : publishPlans digest context plans answers = .ok ready) :
    ready.tablePlans = planPayload plans := by
  obtain ⟨leased, committed, decorated, failed⟩ := answers
  match leased, committed, decorated with
  | .error _, _, _ => cases published
  | .ok (), committed, decorated =>
    simp only [publishPlans, readyContext] at published
    split at published
    · cases published
    · split at published
      · cases published
      · split at published
        · cases published
        · split at published
          · cases published
          · match committed, decorated with
            | .error _, _ => cases published
            | .ok (), .error _ => cases published
            | .ok (), .ok () =>
              cases published
              rfl

/-- The published plans are those of the configured tables, ordered by their ids. -/
theorem prepared_plans {digest : List TableReadPlan → String} {context ready : GenerationContext}
    {tables : List (TableDef × TableAnswers)} {answers : PublicationAnswers}
    {plans : List TableReadPlan}
    (prepared : (prepareSnapshotGeneration digest context tables answers).result =
      .ok (ready, plans)) :
    ready.tablePlans = planPayload plans ∧
      plans.map TableReadPlan.tableId = tables.map fun entry => tableReadId entry.1 := by
  have tried : (attempt digest context tables answers).2 = .ok (ready, plans) := by
    unfold prepareSnapshotGeneration at prepared
    generalize attempt digest context tables answers = ended at prepared
    match ended with
    | (_, .ok _) => exact prepared
    | (_, .error .cancelled) => cases prepared
    | (_, .error (.exception _)) =>
      dsimp only at prepared
      split at prepared <;> cases prepared
  have loop := prepareTables_plans tables {}
  unfold attempt at tried
  generalize prepareTables {} tables = ended at loop tried
  match ended with
  | (_, some _) => cases tried
  | (preparation, none) =>
    dsimp only at tried
    cases published : publishPlans digest context preparation.plans answers with
    | error raised =>
      rw [published] at tried
      cases tried
    | ok installed =>
      rw [published] at tried
      cases tried
      exact ⟨publishPlans_tablePlans published, loop rfl⟩

/-- In every state of the startup, if the tables are configured in the order of their ids
and no table is quarantined after a wait that timed out, no set of shards waits in a cycle. -/
theorem startup_waits_acyclic {digest : List TableReadPlan → String}
    {context ready : GenerationContext} {tables : List (TableDef × TableAnswers)}
    {answers : PublicationAnswers} {plans : List TableReadPlan}
    (prepared : (prepareSnapshotGeneration digest context tables answers).result =
      .ok (ready, plans))
    (startup : Startup) (coordinator : startup.coordinatorPlans = plans)
    (workers : startup.workerPlans = ready.tablePlans)
    (ordered : (tables.map fun entry => tableReadId entry.1).Pairwise (· ≤ ·))
    (actions : List Action)
    (settled : ∀ shard, .timeOut shard ∈ actions → startup.quarantineFailedTables = false)
    (waiting : Set Nat) :
    ¬(startup.run actions).Cyclic startup waiting := by
  obtain ⟨sorted, ids⟩ := prepared_plans prepared
  rw [← ids, pairwise_map] at ordered
  have same : ready.tablePlans = plans := sorted.trans (List.Pairwise.insertionSort_eq ordered)
  refine @not_cyclic startup (tableSplits plans).flatten _ (fun shard => ?_) waiting
  refine List.foldlRecOn actions (motive := fun shards => OnTrack startup _ shards shard) _ ?_ ?_
  · refine .inr ⟨[], ?_, by simp⟩
    simp [Startup.initial, coordinator, workers, same]
  · intro shards onTrack action inside
    exact onTrack.step action fun other isTimeOut => settled other (isTimeOut ▸ inside)

/-- A source table whose two splits are planned. -/
def twoSplits (sourceTable : String) : TableDef × TableAnswers :=
  (⟨"c", sourceTable⟩,
    ⟨.ok (), .ok (firstReadPoint ("c::" ++ sourceTable)), .ok ⟨2, "modulo", "k", none, []⟩⟩)

/-- The coordinator prepares these tables for two shards. -/
def prepareFor (sourceTables : List String) : Outcome (GenerationContext × List TableReadPlan) :=
  prepareSnapshotGeneration (fun _ => "") { twoPlans with planState := .preparing, tablePlans := [] }
    (sourceTables.map twoSplits) ⟨.ok (), .ok (), .ok (), .ok ()⟩

/-- The startup of the shards after that preparation. -/
def startupFor (sourceTables : List String) (quarantine : Bool) : Startup :=
  match (prepareFor sourceTables).result with
  | .ok (ready, plans) => ⟨2, fun _ => none, quarantine, plans, ready.tablePlans, []⟩
  | .error _ => ⟨2, fun _ => none, quarantine, [], [], []⟩

theorem ordered_startup_acyclic :
    ¬((startupFor ["t", "u"] false).run [.advance 0, .timeOut 1]).Cyclic
      (startupFor ["t", "u"] false) {0, 1} :=
  startup_waits_acyclic (show (prepareFor ["t", "u"]).result = .ok _ from rfl) _ rfl rfl
    (by decide) _ (fun _ _ => rfl) _

/-- Two shards wait for each other if the tables are configured against the order of their
ids, and also after a wait that timed out if its table is quarantined. -/
theorem startup_waits_cycle :
    ((startupFor ["u", "t"] false).run [.advance 0]).Cyclic (startupFor ["u", "t"] false) {0, 1} ∧
      ((startupFor ["t", "u"] true).run [.advance 0, .timeOut 1]).Cyclic
        (startupFor ["t", "u"] true) {0, 1} := by
  refine ⟨⟨⟨0, .inl rfl⟩, ?_⟩, ⟨0, .inl rfl⟩, ?_⟩
  · rintro shard (rfl | rfl)
    · exact ⟨⟨"c::u", 1⟩, ⟨⟨_, _, rfl⟩, by decide, by decide⟩, 1, .inr rfl, by decide, by decide⟩
    · exact ⟨⟨"c::t", 0⟩, ⟨⟨_, _, rfl⟩, by decide, by decide⟩, 0, .inl rfl, by decide, by decide⟩
  · rintro shard (rfl | rfl)
    · exact ⟨⟨"c::t", 1⟩, ⟨⟨_, _, rfl⟩, by decide, by decide⟩, 1, .inr rfl, by decide, by decide⟩
    · exact ⟨⟨"c::u", 0⟩, ⟨⟨_, _, rfl⟩, by decide, by decide⟩, 0, .inl rfl, by decide, by decide⟩

end ShortcutProxy.SnapshotPlanning
