import ShortcutProxy.Generation

/-!
# Generation coordinators

Any number of coordinators run `acquire_generation`, `publish_generation_plan`
and `renew_generation` over one coordinator record. A call is advanced one store
access at a time: it reads the record, decides what to install, and installs it
by compare-and-swap if the record is still the one it read. Clock readings and
the random tokens of a new generation are arguments.

The build record, which each call writes after its swap, is read by no operation
of this module and is left out. A rejected call ends; the text of its
`GenerationError` is kept by the checks that raise it.
-/
namespace ShortcutProxy.Generation

/-- A fence as the generation identifier prints it, in twenty places. -/
def paddedFence (fence : Int) : String :=
  let sign := if fence < 0 then "-" else ""
  let digits := toString fence.natAbs
  sign ++ .ofList (.replicate (20 - sign.length - digits.length) '0') ++ digits

/-- The arguments of `acquire_generation`, with the tokens it draws. -/
structure AcquireCall where
  shardCount : Int
  leaseSeconds : Int := 300
  sourceConsistency : String := "best_effort"
  preparePlan : Bool := false
  idToken : String
  leaseToken : String
  deriving DecidableEq, Repr

/-- The generation that `acquire_generation` creates over the record it read. -/
def acquiredContext (digest : List TableReadPlan → String) (call : AcquireCall) (now : Int)
    (previous : Option GenerationRecord) : GenerationContext :=
  let fence := (previous.elim 0 GenerationRecord.fence) + 1
  { generationId := paddedFence fence ++ "-" ++ call.idToken
    fence := fence
    leaseToken := call.leaseToken
    shardCount := call.shardCount
    expiresAtMs := now + call.leaseSeconds * 1000
    sourceConsistency := call.sourceConsistency
    planState := if call.preparePlan then .preparing else .ready
    planSha256 := planDigest digest [] }

/-- `assert_generation_lease`. -/
def assertGenerationLease (coordinator : Option GenerationRecord) (context : GenerationContext)
    (now : Int) : Except String Unit :=
  match coordinator with
  | none => .error "coordinator lease is missing"
  | some lease =>
    if lease.leaseToken ≠ context.leaseToken ∨ lease.fence ≠ context.fence then
      .error "coordinator lease was fenced by a newer generation"
    else if lease.expiresAtMs ≤ now then .error "coordinator lease expired"
    else .ok ()

/-- The text of a plan state in an error. -/
def PlanState.text : PlanState → String
  | .preparing => "PREPARING"
  | .ready => "READY"
  | .failed => "FAILED"
  | .active => "ACTIVE"

/-- `publish_generation_plan`: every plan belongs to the generation and its owner
shard lies inside it. -/
def checkPlans (context : GenerationContext) : List TableReadPlan → Except String Unit
  | [] => .ok ()
  | plan :: rest =>
    if plan.descriptor.generationId ≠ context.generationId ∨
        plan.descriptor.generationFence ≠ context.fence then
      .error ("table plan '" ++ plan.tableId ++ "' belongs to a different generation")
    else if context.shardCount ≤ plan.descriptor.ownerShard then
      .error ("table plan '" ++ plan.tableId ++ "' owner shard is outside the generation")
    else checkPlans context rest

/-- The context that `publish_generation_plan` wants to install. -/
def readyContext (digest : List TableReadPlan → String) (context : GenerationContext)
    (tablePlans : List TableReadPlan) : Except String GenerationContext :=
  let plans := planPayload tablePlans
  if context.version < 2 then .error "generation plans require state version 2"
  else if context.planState ≠ .preparing then
    .error ("generation plan cannot be published from state '" ++ context.planState.text ++ "'")
  else if ¬ (plans.map TableReadPlan.tableId).Nodup then
    .error "generation plan contains duplicate table IDs"
  else
    match checkPlans context plans with
    | .error error => .error error
    | .ok () => .ok { context with
        planState := .ready
        tablePlans := plans
        planSha256 := planDigest digest plans }

/-- `_same_generation`. -/
def sameGeneration (first second : GenerationContext) : Bool :=
  first.generationId = second.generationId ∧ first.fence = second.fence ∧
    first.leaseToken = second.leaseToken ∧ first.shardCount = second.shardCount ∧
    first.version = second.version ∧ first.planState = second.planState ∧
    first.planSha256 = second.planSha256

/-- The second read of `publish_generation_plan`. -/
def unchangedRecord (digest : List TableReadPlan → String) (context : GenerationContext)
    (coordinator : Option GenerationRecord) : Except String GenerationRecord :=
  match coordinator with
  | none => .error "generation changed while plan was prepared"
  | some record =>
    match toContext digest record with
    | none => .error "generation table-plan digest mismatch"
    | some current =>
      if current ≠ context then .error "generation changed while plan was prepared"
      else .ok record

/-- The second read of `renew_generation`. -/
def renewableRecord (digest : List TableReadPlan → String) (context : GenerationContext)
    (coordinator : Option GenerationRecord) : Except String GenerationRecord :=
  match coordinator with
  | none => .error "generation lease was lost before renewal"
  | some record =>
    match toContext digest record with
    | none => .error "generation table-plan digest mismatch"
    | some current =>
      if !sameGeneration current context then .error "generation lease was lost before renewal"
      else .ok record

/-- A coordinator call in progress, by the store access it makes next. -/
inductive CoordinatorCall where
  | acquire (call : AcquireCall)
  | publishPlan (context : GenerationContext) (tablePlans : List TableReadPlan)
  | confirmPlan (context ready : GenerationContext)
  | renew (context : GenerationContext) (leaseSeconds : Int)
  | confirmRenewal (context : GenerationContext) (leaseSeconds : Int)
  | swap (read : Option GenerationRecord) (record : GenerationRecord)
  deriving DecidableEq, Repr

/-- One store access of a call: the coordinator record afterwards, and the rest
of the call if it goes on. -/
def CoordinatorCall.advance (digest : List TableReadPlan → String) (now : Int)
    (coordinator : Option GenerationRecord) :
    CoordinatorCall → Option GenerationRecord × Option CoordinatorCall
  | .acquire call =>
    (coordinator, some (.swap coordinator (toRecord (acquiredContext digest call now coordinator))))
  | .publishPlan context tablePlans =>
    match assertGenerationLease coordinator context now, readyContext digest context tablePlans with
    | .ok (), .ok ready => (coordinator, some (.confirmPlan context ready))
    | _, _ => (coordinator, none)
  | .confirmPlan context ready =>
    match unchangedRecord digest context coordinator with
    | .error _ => (coordinator, none)
    | .ok record => (coordinator, some (.swap (some record) (toRecord ready)))
  | .renew context leaseSeconds =>
    match assertGenerationLease coordinator context now with
    | .error _ => (coordinator, none)
    | .ok () => (coordinator, some (.confirmRenewal context leaseSeconds))
  | .confirmRenewal context leaseSeconds =>
    match renewableRecord digest context coordinator with
    | .error _ => (coordinator, none)
    | .ok record =>
      let renewed := { context with expiresAtMs := now + leaseSeconds * 1000 }
      (coordinator, some (.swap (some record) (toRecord renewed)))
  | .swap read record => if coordinator = read then (some record, none) else (coordinator, none)

end ShortcutProxy.Generation
