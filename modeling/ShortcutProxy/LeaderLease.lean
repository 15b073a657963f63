import ShortcutProxy.Records

/-!
# The leader lease

`control/lease.py` elects one Manager over an artifact store whose single-record
compare-and-swap is atomic. Any number of Managers run any number of calls at the
same time. A call is advanced one store access or one assignment of its Manager's
own fields at a time, in any order, and every clock reading is an argument, so
clocks may disagree and run backwards. A call may also be abandoned at any point,
which covers exceptions and crashes.

The history records, newest first, every committed swap of the lease record and
every fenced write or deletion that the store admitted. The lease record is the
latest one swapped in. What the claims about terms need is contained in a single
relation between the record a swap replaced and the record it installed.
-/
namespace ShortcutProxy.LeaderLease

open Records

/-- The lease record. Byte equality of its canonical encoding is equality of
records. -/
structure LeaseRecord (υ : Type) where
  ownerId : String
  renewMs : Int
  ttlMs : Int
  fence : Int
  state : Table String υ
  deriving DecidableEq

/-- The configured Managers: identities are not empty and `ttl_ms` is clamped. -/
structure Managers (ι : Type) where
  ownerId : ι → String
  ttlMs : ι → Int
  owner_nonempty : ∀ manager, ownerId manager ≠ ""
  ttl_positive : ∀ manager, 1 ≤ ttlMs manager

/-- The fields a Manager keeps in memory. -/
structure Local where
  isLeader : Bool := false
  fence : Int := 0
  deriving DecidableEq, Repr

variable {ι υ : Type}

/-- `_expired`. -/
def LeaseRecord.expired (record : LeaseRecord υ) (now : Int) : Bool :=
  record.ttlMs < now - record.renewMs

/-- The record is held by this owner and has not expired. -/
def LeaseRecord.heldLive (record : LeaseRecord υ) (owner : String) (now : Int) : Bool :=
  record.ownerId = owner ∧ !record.expired now

variable (managers : Managers ι) (manager : ι)

/-- The record `acquire_or_renew` wants to install, or none to stand by. -/
def acquireRecord (now : Int) (read : Option (LeaseRecord υ)) : Option (LeaseRecord υ) :=
  match read with
  | none => some ⟨managers.ownerId manager, now, managers.ttlMs manager, 1, ∅⟩
  | some record =>
    let sameLiveOwner := record.heldLive (managers.ownerId manager) now
    if record.ownerId = "" ∨ record.expired now ∨ sameLiveOwner then
      some ⟨managers.ownerId manager, now, managers.ttlMs manager,
        if sameLiveOwner then record.fence else record.fence + 1, record.state⟩
    else none

/-- The record `release` wants to install, if the term is still its own. -/
def releaseRecord (fence : Int) (read : Option (LeaseRecord υ)) : Option (LeaseRecord υ) :=
  match read with
  | none => none
  | some record =>
    if record.ownerId = managers.ownerId manager ∧ record.fence = fence then
      some ⟨"", 0, managers.ttlMs manager, record.fence, record.state⟩
    else none

/-- The record `mutate_state` wants to install, if the term is live and its own. -/
def mutateRecord (fence now : Int) (name : String) (value : υ)
    (read : Option (LeaseRecord υ)) : Option (LeaseRecord υ) :=
  match read with
  | none => none
  | some record =>
    if record.ownerId = managers.ownerId manager ∧ record.fence = fence ∧ !record.expired now then
      some { record with state := record.state.insert name value }
    else none

/-- `_fence_matches`: the store's own check of a term. The lease record has no
`expires_at_ms`, which then counts as zero. -/
def fenceMatches (lease : Option (LeaseRecord υ)) (owner : String) (fence now : Int) : Bool :=
  match lease with
  | none => false
  | some record => record.ownerId = owner ∧ record.fence = fence ∧
      (if 0 < record.renewMs then now - record.renewMs ≤ record.ttlMs else now < 0)

/-- A term that the store accepts is the one in place. -/
theorem fenceMatches_true {lease : Option (LeaseRecord υ)} {owner : String} {fence now : Int}
    (accepted : fenceMatches lease owner fence now = true) :
    ∃ record, lease = some record ∧ record.ownerId = owner ∧ record.fence = fence := by
  cases lease with
  | none => cases accepted
  | some record =>
    simp only [fenceMatches, decide_eq_true_eq] at accepted
    exact ⟨record, rfl, accepted.1, accepted.2.1⟩

/-- Why a lease record was swapped in. A mutation is recorded with the fence its
Manager held when it checked its term. -/
inductive Cause (υ : Type) where
  | acquire
  | release
  | mutate (fence : Int) (name : String) (value : υ)

/-- What the store committed: a swap of the lease record by a Manager at a clock
reading, or a fenced write or deletion under a term. -/
inductive Event (ι υ : Type) where
  | swap (manager : ι) (cause : Cause υ) (now : Int) (record : LeaseRecord υ)
  | fencedPut (owner : String) (fence : Int) (key : String)
  | fencedDelete (owner : String) (fence : Int) (key : String)

/-- A call in progress, by the step it takes next. Swaps carry the record read
and the record to install; `conclude` assigns the Manager's own fields. -/
inductive Call (υ : Type) where
  | acquire (now : Int) (attempts : Nat)
  | acquireSwap (now : Int) (attempts : Nat) (read : Option (LeaseRecord υ))
      (record : LeaseRecord υ)
  | release
  | releaseCheck (read : Option (LeaseRecord υ))
  | releaseSwap (read : Option (LeaseRecord υ)) (record : LeaseRecord υ)
  | validate (owner : String) (fence now : Int)
  | mutate (name : String) (value : υ) (now : Int) (attempts : Nat)
  | mutateCheck (name : String) (value : υ) (now : Int) (attempts : Nat)
      (read : Option (LeaseRecord υ))
  | mutateSwap (fence : Int) (name : String) (value : υ) (now : Int) (attempts : Nat)
      (read : Option (LeaseRecord υ)) (record : LeaseRecord υ)
  | conclude (fields : Local)

/-- The shared store and the Managers over it. -/
structure System (ι υ : Type) where
  lease : Option (LeaseRecord υ) := none
  objects : Table String υ := ∅
  locals : ι → Local := fun _ => {}
  pending : List (ι × Call υ) := []
  history : List (Event ι υ) := []

/-- The calls of a `LeaderLease`. -/
inductive Request (υ : Type) where
  | acquireOrRenew (now : Int)
  | release
  | validate (owner : Option String) (fence : Option Int) (now : Int)
  | mutateState (name : String) (value : υ) (now : Int)

/-- The first step of a call. Defaults that the source evaluates on entry are
read from the Manager's fields here. -/
def Request.start (fields : Local) : Request υ → Call υ
  | .acquireOrRenew now => .acquire now 4
  | .release => .release
  | .validate owner fence now =>
    .validate (owner.getD (managers.ownerId manager)) (fence.getD fields.fence) now
  | .mutateState name value now => .mutate name value now 8

/-- What a call does next: it waits to continue, or it is over. -/
abbrev Progress (υ : Type) := Option (Call υ)

section Steps

variable [DecidableEq ι] [DecidableEq υ]

/-- Replace a call in progress, or drop it. -/
def System.resume (system : System ι υ) (index : Nat) (manager : ι) (next : Progress υ) :
    System ι υ :=
  { system with
    pending := match next with
      | some call => system.pending.set index (manager, call)
      | none => system.pending.eraseIdx index }

/-- One compare-and-swap of the lease record. -/
def System.swap (system : System ι υ) (index : Nat) (manager : ι) (cause : Cause υ) (now : Int)
    (read : Option (LeaseRecord υ)) (record : LeaseRecord υ) (won lost : Progress υ) :
    System ι υ :=
  if system.lease = read then
    { system.resume index manager won with
      lease := some record
      history := .swap manager cause now record :: system.history }
  else system.resume index manager lost

/-- The fields after `_lose`. -/
def lost : Local := {}

/-- Advance one call by one step. -/
def System.advance (managers : Managers ι) (system : System ι υ) (index : Nat) : System ι υ :=
  match system.pending[index]? with
  | none => system
  | some (manager, call) =>
    match call with
    | .acquire _ 0 => system.resume index manager (some (.conclude lost))
    | .acquire now (attempts + 1) =>
      match acquireRecord managers manager now system.lease with
      | none => system.resume index manager (some (.conclude lost))
      | some record =>
        system.resume index manager (some (.acquireSwap now attempts system.lease record))
    | .acquireSwap now attempts read record =>
      system.swap index manager .acquire now read record
        (some (.conclude ⟨true, record.fence⟩)) (some (.acquire now attempts))
    | .release => system.resume index manager (some (.releaseCheck system.lease))
    | .releaseCheck read =>
      match releaseRecord managers manager (system.locals manager).fence read with
      | none => system.resume index manager (some (.conclude lost))
      | some record => system.resume index manager (some (.releaseSwap read record))
    | .releaseSwap read record =>
      system.swap index manager .release 0 read record (some (.conclude lost))
        (some (.conclude lost))
    | .validate owner fence now =>
      match system.lease with
      | none => system.resume index manager (some (.conclude lost))
      | some record =>
        if record.ownerId = owner ∧ record.fence = fence ∧ !record.expired now then
          system.resume index manager none
        else system.resume index manager (some (.conclude lost))
    | .mutate _ _ _ 0 => system.resume index manager none
    | .mutate name value now (attempts + 1) =>
      system.resume index manager (some (.mutateCheck name value now attempts system.lease))
    | .mutateCheck name value now attempts read =>
      let fence := (system.locals manager).fence
      match mutateRecord managers manager fence now name value read with
      | none => system.resume index manager (some (.conclude lost))
      | some record => system.resume index manager
          (some (.mutateSwap fence name value now attempts read record))
    | .mutateSwap fence name value now attempts read record =>
      system.swap index manager (.mutate fence name value) now read record none
        (some (.mutate name value now attempts))
    | .conclude fields =>
      { system.resume index manager none with
        locals := Function.update system.locals manager fields }

/-- One event of the whole system. Terms presented to the store name an owner. -/
inductive Action (ι υ : Type) where
  | begin (manager : ι) (request : Request υ)
  | advance (index : Nat)
  | abandon (index : Nat)
  | fencedPut (owner : { owner : String // owner ≠ "" }) (fence now : Int) (key : String) (data : υ)
  | fencedDelete (owner : { owner : String // owner ≠ "" }) (fence now : Int) (key : String)

/-- The state after one event. -/
def System.step (managers : Managers ι) (system : System ι υ) : Action ι υ → System ι υ
  | .begin manager request =>
    { system with
      pending := (manager, request.start managers manager (system.locals manager)) ::
        system.pending }
  | .advance index => system.advance managers index
  | .abandon index => { system with pending := system.pending.eraseIdx index }
  | .fencedPut owner fence now key data =>
    if fenceMatches system.lease owner.1 fence now then
      { system with
        objects := assign system.objects key (some data)
        history := .fencedPut owner.1 fence key :: system.history }
    else system
  | .fencedDelete owner fence now key =>
    if fenceMatches system.lease owner.1 fence now then
      { system with
        objects := assign system.objects key none
        history := .fencedDelete owner.1 fence key :: system.history }
    else system

/-- The state after a list of events from an empty store. -/
def run (managers : Managers ι) (actions : List (Action ι υ)) : System ι υ :=
  actions.foldl (.step managers) {}

end Steps

end ShortcutProxy.LeaderLease
