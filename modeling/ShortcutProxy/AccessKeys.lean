import ShortcutProxy.PathText

/-!
# Access keys between their two lookups

The front door resolves the secret of the presented access key, verifies the
signature with it, and then asks whether the key is authorized for the requested
object. Both questions look the key up in a snapshot of the credential store that
is cached for five seconds. A key that is missing from the snapshot means one thing
to `resolve_secret`, the configured legacy key, and another to `authorize`, which
takes every unknown identity for the legacy key and lets it read everything.

This module runs any number of requests together with writes to the credential
store, cache drops and failing reads. Each access to the cache or to the store is a
step of its own. A signature is an oracle: a request verifies under some secrets.
If no snapshot is replaced between the two lookups of a request, and no request
presents the legacy key while a key is stored, every grant lies in the scope that
the key had when its secret was resolved.
-/
namespace ShortcutProxy.AccessKeys

open PathText

/-! ## Keys and their scope -/

/-- A proxy access key. Its label and its `permissions`, which no check reads, are
left out. -/
structure AccessKey where
  secretKey : String
  allowedBuckets : List String
  allowedPrefixes : List (String × List String) := []
  enabled : Bool := true
  deriving DecidableEq, Repr

/-- A dictionary of keys by their identifiers. -/
abbrev Keys := List (String × AccessKey)

/-- `parse_access_key`, on a record with the fields of a key. -/
def parseAccessKey (record : AccessKey) : AccessKey :=
  { record with
    allowedBuckets := (record.allowedBuckets.map strip).filter (· ≠ "")
    allowedPrefixes := record.allowedPrefixes.map fun entry =>
      (entry.1, entry.2.map fun keyPrefix => trim (· = '/') (replaceChar '\\' '/' keyPrefix)) }

/-- `_read_all`, when these records can be read: an unreadable one is skipped, and
an exception, which makes none of them readable, gives no keys at all. -/
def readAll (records : Keys) (readable : String → Bool) : Keys :=
  (records.filter fun entry => readable entry.1).map fun entry => (entry.1, parseAccessKey entry.2)

/-- `get_access_key` in a snapshot. -/
def getAccessKey (keys : Keys) (accessKeyId : String) : Option AccessKey :=
  keys.lookup (strip accessKeyId)

/-- The configured key pair from before there were access keys. -/
structure LegacyKey where
  accessKeyId : String
  secretAccessKey : String

variable (legacy : LegacyKey) (state : State)

/-- `resolve_secret` in a snapshot. -/
def resolveSecret (keys : Keys) (accessKeyId : String) : Option String :=
  match getAccessKey keys accessKeyId with
  | some key => if key.enabled then some key.secretKey else none
  | none => if accessKeyId = legacy.accessKeyId then some legacy.secretAccessKey else none

/-- The methods of requests. -/
inductive Method where
  | get
  | head
  | options
  | post
  | put
  | delete
  deriving DecidableEq, Repr

/-- `_READ_METHODS`. -/
def Method.reads : Method → Bool
  | .get | .head => true
  | .options | .post | .put | .delete => false

/-- Python's `repr` of a bucket name. -/
def quotedName (name : String) : String := "'" ++ name ++ "'"

/-- One of the prefixes admits the object key. -/
def admitsKey (prefixes : List String) (objectKey : String) : Bool :=
  let norm := trimLeft (· = '/') (replaceChar '\\' '/' objectKey)
  prefixes.any fun keyPrefix =>
    startsWith (keyPrefix ++ "/") norm || norm = keyPrefix || keyPrefix = ""

/-- `authorize` in a snapshot: the reason of the denial, if any. -/
def authorize (keys : Keys) (accessKeyId bucket objectKey : String) (method : Method) :
    Option String :=
  if !method.reads then some "read-only: writes are not permitted"
  else match getAccessKey keys accessKeyId with
    | none => none
    | some key =>
      if !key.enabled then some "access key is disabled"
      else if "*" ∉ key.allowedBuckets ∧ bucket ∉ key.allowedBuckets then
        some ("key not authorized for bucket " ++ quotedName bucket)
      else
        let prefixes := (key.allowedPrefixes.lookup bucket).getD []
        if prefixes ≠ [] ∧ admitsKey prefixes objectKey = false then
          some ("key not authorized for this prefix in bucket " ++ quotedName bucket)
        else none

/-- The object lies in the scope of the key. -/
structure AccessKey.Covers (key : AccessKey) (bucket objectKey : String) : Prop where
  inBuckets : "*" ∈ key.allowedBuckets ∨ bucket ∈ key.allowedBuckets
  inPrefixes : ∀ prefixes, key.allowedPrefixes.lookup bucket = some prefixes → prefixes ≠ [] →
    admitsKey prefixes objectKey = true

variable {keys : Keys}

/-- What `authorize` grants to a key that it finds. -/
theorem covers_of_authorize {accessKeyId bucket objectKey : String} {method : Method}
    {key : AccessKey} (found : getAccessKey keys accessKeyId = some key)
    (granted : authorize keys accessKeyId bucket objectKey method = none) :
    key.Covers bucket objectKey := by
  simp only [authorize, found] at granted
  split at granted
  · cases granted
  split at granted
  · cases granted
  split at granted
  · cases granted
  next outside =>
    split at granted
    · cases granted
    next admitted =>
      constructor
      · by_cases wildcard : "*" ∈ key.allowedBuckets
        · exact .inl wildcard
        · by_cases named : bucket ∈ key.allowedBuckets
          · exact .inr named
          · exact absurd ⟨wildcard, named⟩ outside
      · intro prefixes confining given
        rw [confining, Option.getD_some] at admitted
        cases admits : admitsKey prefixes objectKey with
        | true => rfl
        | false => exact absurd ⟨given, admits⟩ admitted

/-! ## Requests between the lookups -/

/-- A request that must be signed: the key it presents, what it asks for, and the
secrets under which its signature verifies. -/
structure Request where
  accessKeyId : String
  bucket : String
  objectKey : String
  method : Method := .get
  verifies : String → Bool

/-- `_all_keys`, by what it does next. -/
inductive Lookup where
  | check
  | read (started : Int)
  | install (started : Int) (keys : Keys)

/-- A request by the lookup it is at. Once verified, it carries the record whose
secret verified it, or none for the legacy key. -/
inductive Stage where
  | resolve (lookup : Lookup)
  | authorize (resolved : Option AccessKey) (lookup : Lookup)

/-- An authorized request: the record that verified it, and whether any access key
was stored at that moment. -/
structure Grant where
  request : Request
  resolved : Option AccessKey
  keysDefined : Bool

/-- A grant stays within bounds: inside the scope that its key had when its secret
was resolved, or to the legacy key while no other key was stored. -/
def Grant.Confined (grant : Grant) : Prop :=
  match grant.resolved with
  | some key => key.Covers grant.request.bucket grant.request.objectKey
  | none => grant.keysDefined = false

/-- The credential store, the cached snapshot with its time stamp, the requests in
progress, and the grants so far. Times are in milliseconds. -/
structure State where
  records : Keys := []
  cache : Option (Keys × Int) := none
  pending : List (Request × Stage) := []
  granted : List Grant := []

/-- `_CACHE_TTL`. -/
def cacheTtl : Int := 5000

/-- The cached snapshot, if it is fresh. -/
def State.fresh (now : Int) : Option Keys :=
  state.cache.bind fun entry => if now - entry.2 < cacheTtl then some entry.1 else none

/-- One step of a lookup: the snapshot it ends with or how it goes on, and the
cache after it. -/
def Lookup.step (now : Int) (readable : String → Bool) :
    Lookup → (Keys ⊕ Lookup) × Option (Keys × Int)
  | .check =>
    match state.fresh now with
    | some keys => (.inl keys, state.cache)
    | none => (.inr (.read now), state.cache)
  | .read started => (.inr (.install started (readAll state.records readable)), state.cache)
  | .install started keys => (.inl keys, some (keys, started))

/-- What the front door does with the snapshot a lookup ended with: the next stage
of the request, or the grant. -/
def conclude (request : Request) (keys : Keys) :
    Stage → Option Stage × List Grant
  | .resolve _ =>
    match resolveSecret legacy keys request.accessKeyId with
    | none => (none, [])
    | some secret =>
      if secret ≠ "" ∧ request.verifies secret then
        (some (.authorize (getAccessKey keys request.accessKeyId) .check), [])
      else (none, [])
  | .authorize resolved _ =>
    if authorize keys request.accessKeyId request.bucket request.objectKey request.method =
        none then
      (none, [⟨request, resolved, !state.records.isEmpty⟩])
    else (none, [])

/-- The lookup that a stage is at. -/
def Stage.lookup : Stage → Lookup
  | .resolve lookup | .authorize _ lookup => lookup

/-- The stage with another lookup. -/
def Stage.continued : Stage → Lookup → Stage
  | .resolve _, lookup => .resolve lookup
  | .authorize resolved _, lookup => .authorize resolved lookup

/-- The request is between its two lookups. -/
def Stage.verified : Stage → Bool
  | .resolve _ => false
  | .authorize _ _ => true

/-- What may happen next. Saving or deleting a key in this process is a change of
the store and then an `invalidate`; another process makes the change alone. -/
inductive Event where
  | arrive (request : Request)
  | advance (index : Nat) (now : Int) (readable : String → Bool)
  | abandon (index : Nat)
  | write (accessKeyId : String) (record : AccessKey)
  | remove (accessKeyId : String)
  | invalidate

/-- The requests with the one at this position replaced or gone. -/
def replaceAt (pending : List (Request × Stage)) (index : Nat) (next : Option (Request × Stage)) :
    List (Request × Stage) :=
  match next with
  | some entry => pending.set index entry
  | none => pending.eraseIdx index

/-- The state after one event. -/
def State.step (legacy : LegacyKey) (state : State) : Event → State
  | .arrive request => { state with pending := (request, .resolve .check) :: state.pending }
  | .advance index now readable =>
    match state.pending[index]? with
    | none => state
    | some (request, stage) =>
      match stage.lookup.step state now readable with
      | (.inr lookup, cache) =>
        { state with
          cache := cache
          pending := replaceAt state.pending index (some (request, stage.continued lookup)) }
      | (.inl keys, cache) =>
        let concluded := conclude legacy state request keys stage
        { state with
          cache := cache
          pending := replaceAt state.pending index (concluded.1.map (.mk request))
          granted := concluded.2 ++ state.granted }
  | .abandon index => { state with pending := state.pending.eraseIdx index }
  | .write accessKeyId record =>
    -- `set_access_key` refuses an empty identifier.
    if strip accessKeyId = "" then state
    else
      { state with
        records := (strip accessKeyId, record) ::
          state.records.filter fun entry => entry.1 ≠ strip accessKeyId }
  | .remove accessKeyId =>
    { state with records := state.records.filter fun entry => entry.1 ≠ strip accessKeyId }
  | .invalidate => { state with cache := none }

/-- The state after a list of events. -/
def run (events : List Event) : State :=
  events.foldl (.step legacy) {}

/-! ## Steady runs -/

/-- A request that presents the legacy key is in progress. -/
def State.servesLegacy : Bool :=
  state.pending.any fun entry => entry.1.accessKeyId = legacy.accessKeyId

/-- Some request is between its two lookups. -/
def State.betweenLookups : Bool := state.pending.any fun entry => entry.2.verified

/-- What a steady run asks of one event in the state before it: the snapshot is
neither expired nor replaced nor dropped while a request is between its lookups,
and no request presents the legacy key while a key is stored. -/
def State.steady : Event → Bool
  | .arrive request => request.accessKeyId ≠ legacy.accessKeyId || state.records.isEmpty
  | .advance index now _ =>
    match state.pending[index]? with
    | some (_, .authorize _ .check) => (state.fresh now).isSome
    | some (_, .resolve (.install _ _)) => !state.betweenLookups
    | _ => true
  | .write _ _ => !state.servesLegacy legacy
  | .invalidate => !state.betweenLookups
  | .abandon _ | .remove _ => true

/-- Every event of a run from this state is steady. -/
def steadyFrom (legacy : LegacyKey) (state : State) : List Event → Bool
  | [] => true
  | event :: rest => state.steady legacy event && steadyFrom legacy (state.step legacy event) rest

/-- What holds of a request in progress in a steady run. -/
structure Settled (request : Request) (stage : Stage) :
    Prop where
  legacyAlone : request.accessKeyId = legacy.accessKeyId → state.records = []
  cached : ∀ resolved lookup, stage = .authorize resolved lookup → lookup = .check ∧
    ∃ keys stamp, state.cache = some (keys, stamp) ∧
      resolved = getAccessKey keys request.accessKeyId ∧
      (resolved = none → request.accessKeyId = legacy.accessKeyId)

/-- The invariant of steady runs. -/
structure Sound : Prop where
  settled : ∀ entry ∈ state.pending, Settled legacy state entry.1 entry.2
  confined : ∀ grant ∈ state.granted, grant.Confined

/-! ## Steady runs confine every grant -/

section Steady

variable {legacy : LegacyKey} {state : State} {request : Request} {stage : Stage}

theorem sound_start : Sound legacy {} where
  settled entry member := by cases member
  confined grant member := by cases member

variable {index : Nat} {lookup : Lookup}

theorem mem_replaceAt {pending : List (Request × Stage)} {next : Option (Request × Stage)}
    {entry : Request × Stage} (member : entry ∈ replaceAt pending index next) :
    entry ∈ pending ∨ next = some entry := by
  cases next with
  | none => exact .inl (List.mem_of_mem_eraseIdx member)
  | some replacement =>
    rcases List.mem_or_eq_of_mem_set member with earlier | rfl
    · exact .inl earlier
    · exact .inr rfl

theorem cache_of_fresh {now : Int} (found : state.fresh now = some keys) :
    ∃ stamp, state.cache = some (keys, stamp) := by
  obtain ⟨entry, cached, chosen⟩ := Option.bind_eq_some_iff.mp found
  split at chosen
  · cases chosen
    exact ⟨entry.2, cached⟩
  · cases chosen

/-- A request that is not between its lookups does not mind a new cache. -/
theorem Settled.of_unverified {later : State} (settled : Settled legacy state request stage)
    (same : later.records = state.records) (outside : stage.verified = false) :
    Settled legacy later request stage where
  legacyAlone presented := same.trans (settled.legacyAlone presented)
  cached resolved lookup between := by
    rw [between] at outside
    cases outside

/-- A request does not mind changes outside the store and the cache. -/
theorem Settled.congr {later : State} (settled : Settled legacy state request stage)
    (records : later.records = state.records) (cache : later.cache = state.cache) :
    Settled legacy later request stage where
  legacyAlone presented := records.trans (settled.legacyAlone presented)
  cached resolved lookup between := by
    rw [cache]
    exact settled.cached resolved lookup between

theorem unverified_of_not_between (quiet : state.betweenLookups = false) {entry : Request × Stage}
    (member : entry ∈ state.pending) : entry.2.verified = false := by
  simpa using List.any_eq_false.mp quiet entry member

/-- What a step may do to the request that makes it: the others are as settled as
before, and so is the request if it goes on. -/
theorem Sound.replace (sound : Sound legacy state) {later : State} {next : Option Stage}
    {grants : List Grant}
    (pending : later.pending = replaceAt state.pending index (next.map (.mk request)))
    (granted : later.granted = grants ++ state.granted)
    (others : ∀ entry ∈ state.pending, Settled legacy later entry.1 entry.2)
    (follows : ∀ following, next = some following → Settled legacy later request following)
    (confined : ∀ grant ∈ grants, grant.Confined) : Sound legacy later where
  settled entry member := by
    rw [pending] at member
    rcases mem_replaceAt member with earlier | continued
    · exact others entry earlier
    · obtain ⟨following, went, rfl⟩ := Option.map_eq_some_iff.mp continued
      exact follows following went
  confined grant member := by
    rw [granted] at member
    rcases List.mem_append.mp member with fresh | earlier
    · exact confined grant fresh
    · exact sound.confined grant earlier

/-- The end of the first lookup, with the snapshot now in the cache. -/
theorem settled_of_conclude {stamp : Int} {later : State} {following : Stage}
    (settled : Settled legacy state request (.resolve lookup))
    (records : later.records = state.records) (cache : later.cache = some (keys, stamp))
    (went : (conclude legacy state request keys (.resolve lookup)).1 = some following) :
    Settled legacy later request following := by
  simp only [conclude] at went
  cases resolved : resolveSecret legacy keys request.accessKeyId with
  | none =>
    rw [resolved] at went
    cases went
  | some secret =>
    rw [resolved] at went
    dsimp only at went
    split at went
    · cases went
      constructor
      · intro presented
        exact records.trans (settled.legacyAlone presented)
      · rintro found lookup ⟨⟩
        refine ⟨rfl, keys, stamp, cache, rfl, fun missing => ?_⟩
        simp only [resolveSecret, missing] at resolved
        split at resolved
        · assumption
        · cases resolved
    · cases went

theorem conclude_resolve_snd (lookup : Lookup) (keys : Keys) :
    (conclude legacy state request keys (.resolve lookup)).2 = [] := by
  simp only [conclude]
  split
  · rfl
  · split <;> rfl

/-- The end of the second lookup, with the snapshot of the first. -/
theorem confined_of_conclude {resolved : Option AccessKey}
    (settled : Settled legacy state request (.authorize resolved lookup))
    (found : ∃ stamp, state.cache = some (keys, stamp)) :
    ∀ grant ∈ (conclude legacy state request keys (.authorize resolved lookup)).2,
      grant.Confined := by
  obtain ⟨_, kept, stamp, cached, same, unrecorded⟩ := settled.cached resolved lookup rfl
  obtain ⟨other, sameCache⟩ := found
  rw [cached] at sameCache
  obtain rfl : kept = keys := congrArg Prod.fst (Option.some.inj sameCache)
  intro grant member
  simp only [conclude] at member
  split at member
  · next granted =>
    obtain rfl := List.mem_singleton.mp member
    unfold Grant.Confined
    cases resolved with
    | some key => exact covers_of_authorize same.symm granted
    | none =>
      have alone := settled.legacyAlone (unrecorded rfl)
      simp only [alone]
      rfl
  · cases member

section

variable (sound : Sound legacy state)
include sound

/-- The lookup goes on in the store, which only happens before the verification. -/
theorem Sound.goes_on {next : Lookup}
    (pending : state.pending[index]? = some (request, .resolve lookup)) :
    Sound legacy { state with
      pending := replaceAt state.pending index (some (request, .resolve next)) } := by
  have settled := sound.settled _ (List.mem_of_getElem? pending)
  have replaced : replaceAt state.pending index (some (request, .resolve next)) =
      replaceAt state.pending index ((some (.resolve next)).map (.mk request)) := rfl
  have granted : state.granted = [] ++ state.granted := rfl
  refine sound.replace replaced granted
    (fun entry member => (sound.settled entry member).congr rfl rfl) ?_ ?_
  · rintro following ⟨⟩
    exact ⟨settled.legacyAlone, fun resolved lookup between => by cases between⟩
  · intro grant member
    cases member

/-- A step of a request before its verification keeps the invariant. -/
theorem Sound.step_resolve {now : Int} {readable : String → Bool}
    (pending : state.pending[index]? = some (request, .resolve lookup))
    (steady : state.steady legacy (.advance index now readable) = true) :
    Sound legacy (state.step legacy (.advance index now readable)) := by
  have settled := sound.settled _ (List.mem_of_getElem? pending)
  simp only [State.step, pending]
  cases lookup with
  | check =>
    simp only [Stage.lookup, Lookup.step]
    cases found : state.fresh now with
    | none => exact sound.goes_on pending
    | some keys =>
      obtain ⟨stamp, cached⟩ := cache_of_fresh found
      refine sound.replace rfl rfl
        (fun entry member => (sound.settled entry member).congr rfl rfl)
        (fun following went => settled_of_conclude settled rfl cached went) ?_
      intro grant member
      rw [conclude_resolve_snd] at member
      cases member
  | read started => exact sound.goes_on pending
  | install started keys =>
    simp only [State.steady, pending, Bool.not_eq_true'] at steady
    refine sound.replace rfl rfl (fun entry member => ?_)
      (fun following went => settled_of_conclude settled rfl rfl went) ?_
    · exact (sound.settled entry member).of_unverified rfl
        (unverified_of_not_between steady member)
    · intro grant member
      rw [conclude_resolve_snd] at member
      cases member

/-- A step of a request after its verification keeps the invariant. -/
theorem Sound.step_authorize {now : Int} {readable : String → Bool}
    {resolved : Option AccessKey}
    (pending : state.pending[index]? = some (request, .authorize resolved lookup))
    (steady : state.steady legacy (.advance index now readable) = true) :
    Sound legacy (state.step legacy (.advance index now readable)) := by
  have settled := sound.settled _ (List.mem_of_getElem? pending)
  obtain ⟨rfl, _⟩ := settled.cached resolved lookup rfl
  simp only [State.steady, pending] at steady
  obtain ⟨keys, found⟩ := Option.isSome_iff_exists.mp steady
  simp only [State.step, pending, Stage.lookup, Lookup.step, found]
  refine sound.replace rfl rfl (fun entry member => (sound.settled entry member).congr rfl rfl) ?_
    (confined_of_conclude settled (cache_of_fresh found))
  intro following went
  simp only [conclude] at went
  split at went <;> cases went

/-- Every steady event keeps the invariant. -/
theorem Sound.step (event : Event)
    (steady : state.steady legacy event = true) : Sound legacy (state.step legacy event) := by
  cases event with
  | arrive request =>
    simp only [State.steady, Bool.or_eq_true, decide_eq_true_eq, List.isEmpty_iff] at steady
    constructor
    · intro entry member
      rcases List.mem_cons.mp member with rfl | earlier
      · constructor
        · intro presented
          rcases steady with other | empty
          · exact absurd presented other
          · exact empty
        · rintro resolved lookup ⟨⟩
      · exact (sound.settled entry earlier).congr rfl rfl
    · exact sound.confined
  | advance index now readable =>
    cases pending : state.pending[index]? with
    | none =>
      have same : state.step legacy (.advance index now readable) = state := by
        simp only [State.step, pending]
      rw [same]
      exact sound
    | some entry =>
      obtain ⟨request, stage⟩ := entry
      cases stage with
      | resolve lookup => exact sound.step_resolve pending steady
      | authorize resolved lookup => exact sound.step_authorize pending steady
  | abandon index =>
    constructor
    · intro entry member
      exact (sound.settled entry (List.mem_of_mem_eraseIdx member)).congr rfl rfl
    · exact sound.confined
  | write accessKeyId record =>
    simp only [State.steady, Bool.not_eq_true'] at steady
    simp only [State.step]
    split
    · exact sound
    · constructor
      · intro entry member
        have other := List.any_eq_false.mp steady entry member
        simp only [decide_eq_true_eq] at other
        exact ⟨fun presented => absurd presented other, (sound.settled entry member).cached⟩
      · exact sound.confined
  | remove accessKeyId =>
    constructor
    · intro entry member
      have settled := sound.settled entry member
      refine ⟨fun presented => ?_, settled.cached⟩
      simp only [State.step, settled.legacyAlone presented, List.filter_nil]
    · exact sound.confined
  | invalidate =>
    simp only [State.steady, Bool.not_eq_true'] at steady
    constructor
    · intro entry member
      exact (sound.settled entry member).of_unverified rfl
        (unverified_of_not_between steady member)
    · exact sound.confined

theorem Sound.run {events : List Event}
    (steady : steadyFrom legacy state events = true) :
    Sound legacy (events.foldl (.step legacy) state) := by
  induction events generalizing state with
  | nil => exact sound
  | cons event rest ih =>
    rw [steadyFrom, Bool.and_eq_true] at steady
    exact ih (sound.step event steady.1) steady.2

end

end Steady

/-- In every steady run every grant stays within bounds. -/
theorem grants_confined (legacy : LegacyKey) (events : List Event)
    (steady : steadyFrom legacy {} events = true) :
    ∀ grant ∈ (run legacy events).granted, grant.Confined :=
  (sound_start.run steady).confined

/-! ## A key that is deleted in between -/

/-- The configured legacy key. -/
def configuredKey : LegacyKey := ⟨"LEGACY", "old"⟩

/-- A key for one bucket. -/
def financeKey : AccessKey where
  secretKey := "secret"
  allowedBuckets := ["finance"]

/-- A request that is signed with this secret. -/
def signed (accessKeyId secret bucket : String) : Request where
  accessKeyId := accessKeyId
  bucket := bucket
  objectKey := "data.parquet"
  verifies := (· = secret)

/-- The request goes on with a working store. -/
def proceed (now : Int) : Event := .advance 0 now fun _ => true

/-- A request with the key, for its own bucket, with the cache filled on the way. -/
def financeRead : List Event :=
  [.write "FINANCE1" financeKey, .invalidate, .arrive (signed "FINANCE1" "secret" "finance"),
    proceed 0, proceed 0, proceed 0, proceed 1000]

theorem grants_confined_finance :
    (run configuredKey financeRead).granted.length = 1 ∧
      ∀ grant ∈ (run configuredKey financeRead).granted, grant.Confined :=
  ⟨by decide, grants_confined configuredKey financeRead (by decide)⟩

/-- The key signs a request for another bucket and is deleted before the second
lookup, which finds the cache expired and then no record. -/
def deletedBetween : List Event :=
  [.write "FINANCE1" financeKey, .invalidate, .arrive (signed "FINANCE1" "secret" "payroll"),
    proceed 0, proceed 0, proceed 0, .remove "FINANCE1", proceed 6000, proceed 6000, proceed 6000]

/-- The legacy key signs a request while another key is stored. -/
def legacyBeside : List Event :=
  [.write "FINANCE1" financeKey, .invalidate, .arrive (signed "LEGACY" "old" "payroll"),
    proceed 0, proceed 0, proceed 0, proceed 1000]

/-- Both requests are granted outside their bounds. -/
theorem grants_out_of_bounds :
    (∃ grant ∈ (run configuredKey deletedBetween).granted,
      grant.resolved = some (parseAccessKey financeKey) ∧ grant.request.bucket = "payroll" ∧
        ¬ grant.Confined) ∧
    ∃ grant ∈ (run configuredKey legacyBeside).granted,
      grant.resolved = none ∧ grant.keysDefined = true ∧ ¬ grant.Confined := by
  constructor
  · refine ⟨_, List.mem_singleton_self _, rfl, rfl, fun confined => ?_⟩
    have buckets := AccessKey.Covers.inBuckets confined
    revert buckets
    decide
  · refine ⟨_, List.mem_singleton_self _, rfl, rfl, fun confined => ?_⟩
    cases confined

end ShortcutProxy.AccessKeys
