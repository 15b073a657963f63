import ShortcutProxy.PathText
import ShortcutProxy.TaskTransitions

/-!
# The workers of a generation

`reconcile_membership` compares the workers recorded for a generation with the Agents that
are alive, and `reassign_fenced_claims` takes back the claims that the outcome does not
cover. The scheduler makes the two calls one after the other, once for each generation in
every scan.

Each worker is a small state machine of its own. A visit of `reconcile_membership` reads
the recorded worker and the observed Agent of one identifier and writes the worker of that
identifier, so the workers change independently and the version of the membership counts
the calls in which at least one of them changed.
-/
namespace ShortcutProxy.WorkQueue

open Contract Generation Records List

/-! ## The source -/

/-- A live Agent as the scheduler reports it. -/
structure LiveAgent where
  agentId : String
  leaseId : String
  capacity : Option Int := none
  deriving DecidableEq, Repr

/-- An Agent in `current_workers`. -/
structure ObservedWorker where
  agentId : String
  leaseHash : String
  capacity : Int
  deriving DecidableEq, Repr

variable (env : Environment)

/-- A missing capacity and a capacity of zero both count as one. -/
def observe (agent : LiveAgent) : ObservedWorker where
  agentId := agent.agentId
  leaseHash := env.hash agent.leaseId
  capacity := max 1 (match agent.capacity with
    | none => 1
    | some hint => if hint = 0 then 1 else hint)

/-- `current_workers`. A later report of an identifier replaces an earlier one. -/
def currentWorkers (agents : List LiveAgent) : Table String ObservedWorker :=
  agents.foldl (fun table agent => table.insert agent.agentId (observe env agent)) ∅

/-- The membership policy that a configured text names. -/
def MembershipPolicy.ofText (text : String) : Option MembershipPolicy :=
  let policy := PathText.lower (PathText.strip text)
  if policy = "fixed" then some .fixed
  else if policy = "elastic" then some .elastic
  else none

/-- The entries of `reasons`. -/
inductive ChangeReason where
  | capacityChanged
  | workerDeparted
  | workerJoined
  | workerRejoined
  deriving DecidableEq, Repr

def ChangeReason.text : ChangeReason → String
  | .capacityChanged => "capacity_changed"
  | .workerDeparted => "worker_departed"
  | .workerJoined => "worker_joined"
  | .workerRejoined => "worker_rejoined"

/-- `",".join(sorted(set(reasons)))`. -/
def changeText (reasons : List ChangeReason) : String :=
  ",".intercalate (([.capacityChanged, .workerDeparted, .workerJoined, .workerRejoined].filter
    fun reason => decide (reason ∈ reasons)).map ChangeReason.text)

/-- The record of a worker that joins. -/
def joinedWorker (now : Int) (observed : ObservedWorker) : Worker where
  agentId := observed.agentId
  leaseHash := observed.leaseHash
  capacity := observed.capacity
  state := .active
  workerFence := 1
  joinedAtMs := now
  lastSeenMs := now

/-- The record of a worker that is not observed any more. -/
def departedWorker (now : Int) (prior : Worker) : Worker :=
  { prior with
    state := .departed
    workerFence := prior.workerFence + 1
    lastSeenMs := now }

/-- A recorded worker is observed under another lease, or after it departed. -/
def rejoins (prior : Worker) (observed : ObservedWorker) : Bool :=
  prior.leaseHash ≠ observed.leaseHash ∨ prior.state ≠ .active

/-- The record of a worker that is observed. -/
def observedWorker (now : Int) (prior : Worker) (observed : ObservedWorker) : Worker :=
  let current := if rejoins prior observed then
    { prior with
      workerFence := prior.workerFence + 1
      joinedAtMs := now
      state := .active }
    else prior
  { current with
    capacity := observed.capacity
    leaseHash := observed.leaseHash
    lastSeenMs := now }

/-- One iteration of the loop in `reconcile_membership`: the new record of one identifier
and the reasons it adds. -/
def reconcileWorker (now : Int) (observed : Option ObservedWorker) (prior : Option Worker) :
    Option Worker × List ChangeReason :=
  match prior, observed with
  | none, none => (none, [])
  | none, some seen => (some (joinedWorker now seen), [.workerJoined])
  | some known, none =>
    if known.state = .active then (some (departedWorker now known), [.workerDeparted])
    else (some known, [])
  | some known, some seen =>
    (some (observedWorker now known seen),
      (if rejoins known seen then [.workerRejoined] else []) ++
        (if known.capacity ≠ seen.capacity then [.capacityChanged] else []))

/-- `sorted(allowed)`. -/
def allowedWorkers (policy : MembershipPolicy) (existing : Table String Worker)
    (current : Table String ObservedWorker) : List String :=
  match policy with
  | .elastic => (existing.keys ++ current.keys).dedup.mergeSort
  | .fixed => existing.keys

/-- The loop in `reconcile_membership`. -/
def reconcileWorkers (now : Int) (current : Table String ObservedWorker) (agentIds : List String)
    (existing : Table String Worker) : Table String Worker × List ChangeReason :=
  agentIds.foldl (fun progress agentId =>
    let visit := reconcileWorker now current[agentId]? progress.1[agentId]?
    (assign progress.1 agentId visit.1, progress.2 ++ visit.2)) (existing, [])

/-- What `reconcile_membership` returns, and does not write, while there are no workers. -/
def waitingMembership (generationId : String) (generationFence : Int) (policy : MembershipPolicy)
    (now : Int) : Membership where
  generationId := generationId
  generationFence := generationFence
  membershipVersion := 0
  policy := policy
  workers := ∅
  reassignmentCount := 0
  lastChangeReason := "waiting_for_workers"
  createdAtMs := now
  updatedAtMs := now

/-- The first membership of a generation. -/
def initialMembership (generationId : String) (generationFence : Int) (policy : MembershipPolicy)
    (current : Table String ObservedWorker) (now : Int) : Membership where
  generationId := generationId
  generationFence := generationFence
  membershipVersion := 1
  policy := policy
  workers := current.map fun _ observed => joinedWorker now observed
  reassignmentCount := 0
  lastChangeReason := "initialized"
  createdAtMs := now
  updatedAtMs := now

/-- The membership after the workers were compared with the Agents observed. -/
def reconciled (now : Int) (current : Table String ObservedWorker) (membership : Membership) :
    Membership :=
  let visited := reconcileWorkers now current
    (allowedWorkers membership.policy membership.workers current) membership.workers
  { membership with
    workers := visited.1
    updatedAtMs := now
    membershipVersion := if visited.2 = [] then membership.membershipVersion
      else membership.membershipVersion + 1
    lastChangeReason := if visited.2 = [] then membership.lastChangeReason
      else changeText visited.2 }

/-- `reconcile_membership`. -/
def reconcileMembership (generationId : String) (generationFence : Int) (agents : List LiveAgent)
    (policyText : String) (now : Int) (state : QueueState) :
    Except QueueError Membership × QueueState :=
  match MembershipPolicy.ofText policyText with
  | none => (.error ⟨.valueError, "membership policy must be 'fixed' or 'elastic'"⟩, state)
  | some policy =>
    let current := currentWorkers env agents
    match state.store.memberships[generationId]? with
    | none =>
      if current.isEmpty then
        (.ok (waitingMembership generationId generationFence policy now), state)
      else
        let membership := initialMembership generationId generationFence policy current now
        (.ok membership, state.perform .outside (.membership generationId membership))
    | some membership =>
      if membership.generationId ≠ generationId ∨
          membership.generationFence ≠ generationFence then
        (.error (conflict "membership belongs to another generation"), state)
      else if membership.policy ≠ policy then
        (.error (conflict "membership policy cannot change during an active generation"), state)
      else
        let next := reconciled now current membership
        (.ok next, state.perform .outside (.membership generationId next))

/-- The arguments of one pair of calls, with the clock reading of each. -/
structure Scan where
  generationId : String
  generationFence : Int
  agents : List LiveAgent
  policy : String
  reconciledAt : Int
  reassignedAt : Int

/-- `reconcile_membership` and then `reassign_fenced_claims` on what it returned. -/
def scan (call : Scan) (state : QueueState) :
    Except QueueError Nat × QueueState :=
  match reconcileMembership env call.generationId call.generationFence call.agents call.policy
      call.reconciledAt state with
  | (.error error, next) => (.error error, next)
  | (.ok membership, next) =>
    let pass := reassignFencedClaims call.generationId membership call.reassignedAt next
    (.ok pass.1, pass.2)

/-! ## Changes of one worker -/

/-- The worker of a membership that may not exist yet. -/
def workerAt (membership : Option Membership) (agentId : String) : Option Worker :=
  membership.bind fun current => current.workers[agentId]?

/-- The version of a membership, zero before there is one. -/
def versionAt (membership : Option Membership) : Int :=
  (membership.map Membership.membershipVersion).getD 0

/-- The worker departs, returns or is recorded under another lease. -/
def Fences (old new : Worker) : Prop :=
  (old.state = .active ∧ new.state = .departed) ∨ (old.state = .departed ∧ new.state = .active) ∨
    old.leaseHash ≠ new.leaseHash

/-- The worker joins, departs, returns, changes its lease or changes its capacity. -/
def Changes (before after : Option Worker) : Prop :=
  (before = none ∧ after.isSome) ∨
    ∃ old new, before = some old ∧ after = some new ∧ (Fences old new ∨ old.capacity ≠ new.capacity)

theorem not_changes_self (worker : Option Worker) : ¬Changes worker worker := by
  rintro (⟨rfl, present⟩ | ⟨old, new, found, same, change⟩)
  · cases present
  · cases found.symm.trans same
    rcases change with (⟨active, departed⟩ | ⟨departed, active⟩ | lease) | capacity
    · cases active.symm.trans departed
    · cases active.symm.trans departed
    · exact lease rfl
    · exact capacity rfl

section Visit

variable (now : Int) (observed : Option ObservedWorker) (prior : Option Worker)

theorem observedWorker_state (known : Worker) (seen : ObservedWorker) :
    (observedWorker now known seen).state = .active := by
  unfold observedWorker
  by_cases again : rejoins known seen = true
  · rw [if_pos again]
  · rw [if_neg again]
    simp only [rejoins, decide_eq_true_eq, not_or, not_not] at again
    exact again.2

theorem observedWorker_fence (known : Worker) (seen : ObservedWorker) :
    (observedWorker now known seen).workerFence =
      if rejoins known seen then known.workerFence + 1 else known.workerFence := by
  unfold observedWorker
  split <;> rfl

/-- An observed worker is fenced exactly when it rejoins. -/
theorem fences_observedWorker (known : Worker) (seen : ObservedWorker) :
    Fences known (observedWorker now known seen) ↔ rejoins known seen = true := by
  have lease : (observedWorker now known seen).leaseHash = seen.leaseHash := rfl
  rw [Fences, observedWorker_state, lease, rejoins, decide_eq_true_eq]
  cases known.state <;> simp

/-- A visit gives a reason exactly when it changes the worker. -/
theorem reconcileWorker_reasons :
    (reconcileWorker now observed prior).2 ≠ [] ↔
      Changes prior (reconcileWorker now observed prior).1 := by
  cases prior with
  | none =>
    cases observed with
    | none => exact iff_of_false (by simp [reconcileWorker]) (not_changes_self none)
    | some seen => exact iff_of_true (by simp [reconcileWorker]) (.inl ⟨rfl, rfl⟩)
  | some known =>
    cases observed with
    | none =>
      simp only [reconcileWorker]
      split
      · next active =>
        exact iff_of_true (by simp) (.inr ⟨known, _, rfl, rfl, .inl (.inl ⟨active, rfl⟩)⟩)
      · exact iff_of_false (by simp) (not_changes_self _)
    | some seen =>
      have change : Changes (some known) (some (observedWorker now known seen)) ↔
          rejoins known seen = true ∨ known.capacity ≠ seen.capacity := by
        rw [← fences_observedWorker now known seen]
        constructor
        · rintro (⟨missing, _⟩ | ⟨_, _, ⟨⟩, ⟨⟩, moved⟩)
          · cases missing
          · exact moved
        · exact fun moved => .inr ⟨known, _, rfl, rfl, moved⟩
      simp only [reconcileWorker, change]
      by_cases again : rejoins known seen = true
      · simp [again]
      · simp [again]

/-- A visit keeps a recorded worker. Its fence grows when it is fenced and is kept
otherwise. -/
theorem reconcileWorker_fence {known : Worker} :
    ∃ new, (reconcileWorker now observed (some known)).1 = some new ∧
      (Fences known new → known.workerFence < new.workerFence) ∧
      (¬Fences known new → new.workerFence = known.workerFence) := by
  cases observed with
  | none =>
    simp only [reconcileWorker]
    split
    · next active =>
      refine ⟨_, rfl, fun _ => ?_, fun calm => absurd (.inl ⟨active, rfl⟩) calm⟩
      exact Int.lt_succ _
    · refine ⟨_, rfl, fun fenced => ?_, fun _ => rfl⟩
      exact absurd (.inr ⟨_, _, rfl, rfl, .inl fenced⟩) (not_changes_self (some known))
  | some seen =>
    refine ⟨_, rfl, ?_, ?_⟩
    · intro fenced
      rw [observedWorker_fence, if_pos ((fences_observedWorker now known seen).mp fenced)]
      exact Int.lt_succ _
    · intro calm
      rw [observedWorker_fence, if_neg ((fences_observedWorker now known seen).not.mp calm)]

end Visit

/-! ## The loop over the workers -/

section Loop

variable (now : Int) (current : Table String ObservedWorker)

/-- The loop visits each identifier once, with the worker that was recorded for it. -/
theorem reconcileWorkers_visits (agentIds : List String) (distinct : agentIds.Nodup)
    (existing : Table String Worker) :
    (∀ agentId, (reconcileWorkers now current agentIds existing).1[agentId]? =
      if agentId ∈ agentIds then (reconcileWorker now current[agentId]? existing[agentId]?).1
      else existing[agentId]?) ∧
    (reconcileWorkers now current agentIds existing).2 =
      agentIds.flatMap fun agentId =>
        (reconcileWorker now current[agentId]? existing[agentId]?).2 := by
  suffices walk : ∀ (names : List String) (workers : Table String Worker)
      (reasons : List ChangeReason), names.Nodup →
      let result := names.foldl (fun progress agentId =>
        let visit := reconcileWorker now current[agentId]? progress.1[agentId]?
        (assign progress.1 agentId visit.1, progress.2 ++ visit.2)) (workers, reasons)
      (∀ agentId, result.1[agentId]? =
        if agentId ∈ names then (reconcileWorker now current[agentId]? workers[agentId]?).1
        else workers[agentId]?) ∧
      result.2 = reasons ++ names.flatMap fun agentId =>
        (reconcileWorker now current[agentId]? workers[agentId]?).2 by
    exact walk agentIds existing [] distinct
  intro names
  induction names with
  | nil => exact fun workers reasons _ => ⟨fun agentId => by simp, by simp⟩
  | cons name rest ih =>
    intro workers reasons different
    obtain ⟨fresh, others⟩ := nodup_cons.mp different
    obtain ⟨read, given⟩ := ih
      (assign workers name (reconcileWorker now current[name]? workers[name]?).1)
      (reasons ++ (reconcileWorker now current[name]? workers[name]?).2) others
    constructor
    · intro agentId
      refine (read agentId).trans ?_
      by_cases same : name = agentId
      · subst same
        rw [if_neg fresh, if_pos mem_cons_self, getElem?_assign_self]
      · rw [getElem?_assign_of_ne _ _ same]
        simp [mem_cons, Ne.symm same]
    · refine given.trans ?_
      rw [flatMap_cons, append_assoc]
      congr 2
      refine flatMap_congr fun agentId inside => ?_
      rw [getElem?_assign_of_ne _ _ ?_]
      rintro rfl
      exact fresh inside

/-- What the loop sees of an identifier. Identifiers that it skips are as if unobserved. -/
def seenWorker (policy : MembershipPolicy) (existing : Table String Worker)
    (current : Table String ObservedWorker) (agentId : String) : Option ObservedWorker :=
  if agentId ∈ allowedWorkers policy existing current then current[agentId]? else none

theorem mem_allowedWorkers (policy : MembershipPolicy) (existing : Table String Worker)
    {agentId : String} {worker : Worker} (recorded : existing[agentId]? = some worker) :
    agentId ∈ allowedWorkers policy existing current := by
  have key : agentId ∈ existing.keys := by
    rw [Std.ExtTreeMap.mem_keys, Std.ExtTreeMap.mem_iff_isSome_getElem?, recorded]
    rfl
  cases policy with
  | fixed => exact key
  | elastic =>
    rw [allowedWorkers, mem_mergeSort, mem_dedup]
    exact mem_append_left _ key

theorem allowedWorkers_nodup (policy : MembershipPolicy) (existing : Table String Worker) :
    (allowedWorkers policy existing current).Nodup := by
  cases policy with
  | fixed => exact Std.ExtTreeMap.nodup_keys
  | elastic =>
    rw [allowedWorkers, (mergeSort_perm _ _).nodup_iff]
    exact nodup_dedup _

/-- After the call every worker is as its own visit left it. -/
theorem reconciled_worker (membership : Membership) (agentId : String) :
    (reconciled now current membership).workers[agentId]? =
      (reconcileWorker now (seenWorker membership.policy membership.workers current agentId)
        membership.workers[agentId]?).1 := by
  refine ((reconcileWorkers_visits now current _ (allowedWorkers_nodup current membership.policy
    membership.workers) membership.workers).1 agentId).trans ?_
  unfold seenWorker
  split
  · rfl
  · next skipped =>
    cases recorded : membership.workers[agentId]? with
    | none => rfl
    | some worker => exact absurd (mem_allowedWorkers current _ _ recorded) skipped

/-- The version grows exactly when a worker changed. -/
theorem reconciled_version (membership : Membership) :
    membership.membershipVersion ≤ (reconciled now current membership).membershipVersion ∧
      (membership.membershipVersion < (reconciled now current membership).membershipVersion ↔
        ∃ agentId : String, Changes membership.workers[agentId]?
          (reconciled now current membership).workers[agentId]?) := by
  have given := (reconcileWorkers_visits now current _ (allowedWorkers_nodup current
    membership.policy membership.workers) membership.workers).2
  have changed : (reconcileWorkers now current (allowedWorkers membership.policy membership.workers
      current) membership.workers).2 ≠ [] ↔ ∃ agentId : String, Changes membership.workers[agentId]?
        (reconciled now current membership).workers[agentId]? := by
    rw [given, Ne, flatMap_eq_nil_iff]
    push Not
    simp only [reconciled_worker, ← reconcileWorker_reasons]
    constructor
    · rintro ⟨agentId, inside, reasons⟩
      refine ⟨agentId, ?_⟩
      rw [seenWorker, if_pos inside]
      exact reasons
    · rintro ⟨agentId, reasons⟩
      by_cases inside : agentId ∈ allowedWorkers membership.policy membership.workers current
      · rw [seenWorker, if_pos inside] at reasons
        exact ⟨agentId, inside, reasons⟩
      · rw [seenWorker, if_neg inside] at reasons
        cases recorded : membership.workers[agentId]? with
        | none =>
          rw [recorded] at reasons
          exact absurd rfl reasons
        | some worker => exact absurd (mem_allowedWorkers current _ _ recorded) inside
  rw [← changed]
  simp only [reconciled]
  split
  · next calm => simp [calm]
  · next moved => exact ⟨Int.le_of_lt (Int.lt_succ _), iff_of_true (Int.lt_succ _) moved⟩

end Loop

/-! ## Changes of a membership -/

/-- What one step may do to the membership of a generation. -/
structure MembershipMove (before after : Option Membership) : Prop where
  version_le : versionAt before ≤ versionAt after
  version_lt_iff : versionAt before < versionAt after ↔
    ∃ agentId, Changes (workerAt before agentId) (workerAt after agentId)
  worker_kept : ∀ agentId old, workerAt before agentId = some old →
    ∃ new, workerAt after agentId = some new ∧ (Fences old new → old.workerFence < new.workerFence) ∧
      (¬Fences old new → new.workerFence = old.workerFence)
  policy_kept : ∀ old, before = some old → ∃ new, after = some new ∧ new.policy = old.policy
  fixed_kept : ∀ old, before = some old → old.policy = .fixed →
    ∀ agentId, (workerAt after agentId).isSome → (workerAt before agentId).isSome

/-- A step that keeps the version, the workers and the policy. -/
theorem MembershipMove.of_same {before after : Option Membership}
    (version : versionAt after = versionAt before)
    (workers : ∀ agentId, workerAt after agentId = workerAt before agentId)
    (policy : ∀ old, before = some old → ∃ new, after = some new ∧ new.policy = old.policy) :
    MembershipMove before after where
  version_le := version.ge
  version_lt_iff := by
    refine iff_of_false (not_lt_of_ge version.le) ?_
    rintro ⟨agentId, change⟩
    rw [workers] at change
    exact not_changes_self _ change
  worker_kept agentId old recorded :=
    ⟨old, (workers agentId).trans recorded,
      fun fenced => absurd (.inr ⟨old, old, rfl, rfl, .inl fenced⟩) (not_changes_self (some old)),
      fun _ => rfl⟩
  policy_kept := policy
  fixed_kept old _ _ agentId present := by rwa [workers] at present

theorem MembershipMove.refl (membership : Option Membership) :
    MembershipMove membership membership :=
  .of_same rfl (fun _ => rfl) fun old found => ⟨old, found, rfl⟩

/-- A move followed by a step that keeps the version, the workers and the policy. -/
theorem MembershipMove.then_same {before middle after : Option Membership}
    (move : MembershipMove before middle) (version : versionAt after = versionAt middle)
    (workers : ∀ agentId, workerAt after agentId = workerAt middle agentId)
    (policy : ∀ old, middle = some old → ∃ new, after = some new ∧ new.policy = old.policy) :
    MembershipMove before after where
  version_le := version ▸ move.version_le
  version_lt_iff := by
    simp only [version, workers]
    exact move.version_lt_iff
  worker_kept agentId := by
    rw [workers agentId]
    exact move.worker_kept agentId
  policy_kept old found := by
    obtain ⟨new, present, same⟩ := move.policy_kept old found
    obtain ⟨last, stored, again⟩ := policy new present
    exact ⟨last, stored, again.trans same⟩
  fixed_kept old found fixed agentId := by
    rw [workers agentId]
    exact move.fixed_kept old found fixed agentId

/-- `reconcile_membership` on a recorded membership. -/
theorem MembershipMove.reconciled (now : Int) (current : Table String ObservedWorker)
    (membership : Membership) :
    MembershipMove (some membership) (some (WorkQueue.reconciled now current membership)) where
  version_le := (reconciled_version now current membership).1
  version_lt_iff := (reconciled_version now current membership).2
  worker_kept agentId old recorded := by
    obtain ⟨new, found, fenced, calm⟩ := @reconcileWorker_fence now
      (seenWorker membership.policy membership.workers current agentId) old
    refine ⟨new, (reconciled_worker now current membership agentId).trans ?_, fenced, calm⟩
    rw [show membership.workers[agentId]? = some old from recorded]
    exact found
  policy_kept old found := by
    cases found
    exact ⟨_, rfl, rfl⟩
  fixed_kept old found fixed agentId present := by
    cases found
    cases recorded : membership.workers[agentId]? with
    | some worker => exact Option.isSome_of_eq_some recorded
    | none =>
      have read : (WorkQueue.reconciled now current membership).workers[agentId]? = none := by
        -- Under the fixed policy an identifier without a record is never seen.
        have unseen : seenWorker .fixed membership.workers current agentId = none := by
          refine if_neg fun inside => ?_
          rw [allowedWorkers, Std.ExtTreeMap.mem_keys, Std.ExtTreeMap.mem_iff_isSome_getElem?,
            recorded] at inside
          cases inside
        rw [reconciled_worker, fixed, unseen, recorded]
        rfl
      change ((WorkQueue.reconciled now current membership).workers[agentId]?).isSome = true
        at present
      rw [read] at present
      cases present

/-- The first membership of a generation. -/
theorem MembershipMove.initial (generationId : String) (generationFence : Int)
    (policy : MembershipPolicy) {current : Table String ObservedWorker} (now : Int)
    (populated : current.isEmpty = false) :
    MembershipMove none
      (some (initialMembership generationId generationFence policy current now)) where
  version_le := zero_le_one
  version_lt_iff := by
    refine iff_of_true zero_lt_one ?_
    have inhabited : ¬∀ agentId : String, agentId ∉ current := by
      rw [← Std.ExtTreeMap.eq_empty_iff_forall_not_mem, ← Std.ExtTreeMap.isEmpty_iff, populated]
      exact Bool.false_ne_true
    push Not at inhabited
    obtain ⟨agentId, inside⟩ := inhabited
    refine ⟨agentId, .inl ⟨rfl, ?_⟩⟩
    change (((current.map fun _ observed => joinedWorker now observed)[agentId]?).isSome) = true
    rw [← Std.ExtTreeMap.mem_iff_isSome_getElem?, Std.ExtTreeMap.mem_map]
    exact inside
  worker_kept agentId old recorded := by cases recorded
  policy_kept old found := by cases found
  fixed_kept old found := by cases found

/-! ## Scans -/

section Scan

variable {env : Environment} {state : QueueState} {generationId : String}

/-- `reassign_fenced_claims` writes at most the membership it was given, with a new count. -/
theorem reassignFencedClaims_memberships (membership : Membership) (now : Int) :
    (∀ other, generationId ≠ other →
      (reassignFencedClaims generationId membership now state).2.store.memberships[other]? =
        state.store.memberships[other]?) ∧
    ((reassignFencedClaims generationId membership now state).2.store.memberships[generationId]? =
        state.store.memberships[generationId]? ∨
      ∃ count reason, (reassignFencedClaims generationId membership now
        state).2.store.memberships[generationId]? = some
          { membership with
            reassignmentCount := count, updatedAtMs := now, lastChangeReason := reason }) := by
  have loop : (state.store.listTasks.foldl (fun current task =>
      reassignTask generationId membership now task current) state).store.memberships =
        state.store.memberships := by
    refine view_foldl Store.memberships _ (fun current task => ?_) _ state
    unfold reassignTask
    split <;> rfl
  simp only [reassignFencedClaims]
  split
  · rw [loop]
    exact ⟨fun _ _ => rfl, .inl rfl⟩
  · refine ⟨fun other apart => ?_, .inr ⟨_, _, getElem?_assign_self _ _ _⟩⟩
    exact (getElem?_assign_of_ne _ _ apart).trans (by rw [loop])

/-- What a completed `reconcile_membership` does: it writes at most the membership of its
generation, and returns the one that is recorded afterwards, or one without workers. -/
theorem reconcileMembership_ok {generationFence : Int} {agents : List LiveAgent}
    {policyText : String} {now : Int} {membership : Membership} {next : QueueState}
    (completed : reconcileMembership env generationId generationFence agents policyText now state =
      (.ok membership, next)) :
    MembershipMove state.store.memberships[generationId]? next.store.memberships[generationId]? ∧
      (∀ other, generationId ≠ other →
        next.store.memberships[other]? = state.store.memberships[other]?) ∧
      next.store.tasks = state.store.tasks ∧
      (next.store.memberships[generationId]? = some membership ∨
        next.store.memberships[generationId]? = none ∧ membership.workers = ∅ ∧
          membership.membershipVersion = 0) ∧
      (next = state ∨ next = state.perform .outside (.membership generationId membership)) := by
  unfold reconcileMembership at completed
  split at completed
  · cases completed
  · dsimp only at completed
    split at completed
    · next policy _ _ absent =>
      split at completed
      · cases completed
        rw [absent]
        exact ⟨.refl none, fun _ _ => rfl, rfl, .inr ⟨rfl, rfl, rfl⟩, .inl rfl⟩
      · next populated =>
        cases completed
        rw [absent]
        have written : (state.perform .outside (.membership generationId (initialMembership
            generationId generationFence policy (currentWorkers env agents)
            now))).store.memberships[generationId]? = some (initialMembership
              generationId generationFence policy (currentWorkers env agents) now) :=
          getElem?_assign_self _ _ _
        refine ⟨?_, fun other apart => getElem?_assign_of_ne _ _ apart, rfl, .inl written,
          .inr rfl⟩
        rw [written]
        exact .initial generationId generationFence policy now (by simpa using populated)
    · next recorded found =>
      split at completed
      · cases completed
      · split at completed
        · cases completed
        · cases completed
          have written : (state.perform .outside (.membership generationId (reconciled now
              (currentWorkers env agents) recorded))).store.memberships[generationId]? =
                some (reconciled now (currentWorkers env agents) recorded) :=
            getElem?_assign_self _ _ _
          refine ⟨?_, fun other apart => getElem?_assign_of_ne _ _ apart, rfl, .inl written,
            .inr rfl⟩
          rw [found, written]
          exact .reconciled now _ recorded

theorem reconcileMembership_error {generationFence : Int} {agents : List LiveAgent}
    {policyText : String} {now : Int} {error : QueueError} {next : QueueState}
    (failed : reconcileMembership env generationId generationFence agents policyText now state =
      (.error error, next)) : next = state := by
  unfold reconcileMembership at failed
  split at failed
  · cases failed
    rfl
  · dsimp only at failed
    split at failed
    · split at failed <;> cases failed
    · split at failed
      · cases failed
        rfl
      · split at failed
        · cases failed
          rfl
        · cases failed

/-- A scan is a move of every membership. -/
theorem scan_move (call : Scan) (state : QueueState) (generationId : String) :
    MembershipMove state.store.memberships[generationId]?
      (scan env call state).2.store.memberships[generationId]? := by
  cases shape : reconcileMembership env call.generationId call.generationFence call.agents
      call.policy call.reconciledAt state with
  | mk outcome next =>
    cases outcome with
    | error error =>
      simp only [scan, shape]
      rw [reconcileMembership_error shape]
      exact .refl _
    | ok membership =>
      simp only [scan, shape]
      obtain ⟨move, others, _, returned, _⟩ := reconcileMembership_ok shape
      obtain ⟨elsewhere, own⟩ := @reassignFencedClaims_memberships next call.generationId
        membership call.reassignedAt
      by_cases same : call.generationId = generationId
      · subst same
        rcases own with kept | ⟨count, reason, written⟩
        · rw [kept]
          exact move
        · rw [written]
          rcases returned with stored | ⟨missing, workers, version⟩
          · rw [stored] at move
            exact move.then_same rfl (fun _ => rfl) fun old found => by
              cases found
              exact ⟨_, rfl, rfl⟩
          · rw [missing] at move
            refine move.then_same version (fun agentId => ?_) fun old found => by cases found
            simp [workerAt, workers]
      · rw [elsewhere _ same, others _ same]
        exact .refl _

end Scan

/-! ## Runs -/

/-- An operation that may write a membership on its own. -/
def Operation.writesMembership : Operation → Bool
  | .changeMembership _ _ => true
  | .reassignFencedClaims _ _ _ => true
  | _ => false

/-- The steps of a queue whose memberships only the scans write. -/
inductive MembershipStep where
  | scan (call : Scan)
  | other (operation : Operation) (quiet : operation.writesMembership = false)

/-- The state after one step. -/
def MembershipStep.next (settings : Settings) (state : QueueState) :
    MembershipStep → QueueState
  | .scan call => (WorkQueue.scan env call state).2
  | .other operation _ => execute env settings state operation

section Runs

variable {env : Environment} {settings : Settings}

/-- An operation that writes no membership keeps them all. -/
theorem execute_memberships (state : QueueState) {operation : Operation}
    (quiet : operation.writesMembership = false) :
    (execute env settings state operation).store.memberships = state.store.memberships := by
  cases operation with
  | changeMembership | reassignFencedClaims => cases quiet
  | changeObject | changeMetadata | changeCoordinator => rfl
  | _ =>
    refine (execute_moves state _ (Operation.permitted_all _)).within.view Store.memberships ?_
    intro writer member write touched store
    simp only [Operation.writers, mem_cons, not_mem_nil, or_false] at member
    cases write with
    | membership =>
      rcases member with rfl | rfl | rfl | rfl <;> cases touched
    | _ => rfl

/-- Every step is a move of every membership. -/
theorem MembershipStep.move (step : MembershipStep) (state : QueueState) (generationId : String) :
    MembershipMove state.store.memberships[generationId]?
      (step.next env settings state).store.memberships[generationId]? := by
  cases step with
  | scan call =>
    rw [MembershipStep.next]
    exact scan_move call state generationId
  | other operation quiet =>
    rw [MembershipStep.next, execute_memberships state quiet]
    exact .refl _

/-- What any number of steps may do to the membership of a generation. -/
structure MembershipSince (before after : Option Membership) : Prop where
  version_le : versionAt before ≤ versionAt after
  policy_kept : ∀ old, before = some old → ∃ new, after = some new ∧ new.policy = old.policy
  fixed_kept : ∀ old, before = some old → old.policy = .fixed →
    ∀ agentId, (workerAt after agentId).isSome → (workerAt before agentId).isSome

theorem MembershipSince.refl (membership : Option Membership) :
    MembershipSince membership membership :=
  ⟨le_rfl, fun old found => ⟨old, found, rfl⟩, fun _ _ _ _ present => present⟩

theorem MembershipSince.step {before middle after : Option Membership}
    (since : MembershipSince before middle) (move : MembershipMove middle after) :
    MembershipSince before after where
  version_le := since.version_le.trans move.version_le
  policy_kept old found := by
    obtain ⟨current, stored, policy⟩ := since.policy_kept old found
    obtain ⟨new, present, same⟩ := move.policy_kept current stored
    exact ⟨new, present, same.trans policy⟩
  fixed_kept old found fixed agentId member := by
    obtain ⟨current, stored, policy⟩ := since.policy_kept old found
    exact since.fixed_kept old found fixed agentId
      (move.fixed_kept current stored (policy.trans fixed) agentId member)

/-- The claim of a task is held by an active worker under its current lease and fence. -/
def HeldByWorker (membership : Option Membership) (task : TaskRecord) : Prop :=
  ∃ claim worker, task.claim = some claim ∧ workerAt membership claim.agentId = some worker ∧
    worker.state = .active ∧ worker.leaseHash = claim.agentLeaseHash ∧
      worker.workerFence = claim.workerFence

/-- Whether a claim is held depends on the workers of the membership only. -/
theorem HeldByWorker.congr {first second : Option Membership} {task : TaskRecord}
    (workers : ∀ agentId, workerAt first agentId = workerAt second agentId) :
    HeldByWorker first task ↔ HeldByWorker second task := by
  simp only [HeldByWorker, workers]

end Runs

end ShortcutProxy.WorkQueue
