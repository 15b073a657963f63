import ShortcutProxy.AccessKeys
import ShortcutProxy.Mounts

/-!
# The front door before the object handlers

A request passes `sigv4_auth_middleware`, then the middlewares of the operator
routes, and is then routed by its path. The middleware lets some paths through
before it looks at the bucket: those that start with the path of a health, readiness
or metrics endpoint, and the operator routes. For all others it takes the bucket and
the key from `request.url.path`, and demands a signature and an authorization when
they are required for that bucket.

A handler sees the bucket and the key that the route captured. So it is guarded
exactly when `request.url.path` is not exempt and splits into that bucket and that
key. The endpoint names are compared without regard to where a path segment ends:
a bucket whose name only starts with `metrics` is served to everyone.

What `verify_signature` makes of a request, whether the operator middlewares let it
through, and what `request.url.path` is, are inputs. So is the set of paths that the
optional consoles capture.
-/

namespace ShortcutProxy.FrontDoor

open PathText Segments AccessKeys Mounts List

/-! ## Paths -/

/-- `_AUTH_EXEMPT_PREFIXES`. -/
def authExemptPrefixes : List String := ["/healthz", "/readyz", "/metrics", "/favicon.ico"]

/-- `_STANDALONE_OPERATOR_PREFIXES`. -/
def standaloneOperatorPrefixes : List String := ["/_admin", "/_config", "/_monitor"]

/-- `is_operator_route`. -/
def isOperatorRoute (path : String) (prefixes : List String) : Bool :=
  prefixes.any fun operator => atOrBelow operator path

/-- `_bucket_key_from_path`. -/
def bucketKeyFromPath (path : String) : String × String :=
  let trimmed := path.toList.dropWhile (· = '/')
  (.ofList (trimmed.takeWhile (· ≠ '/')),
    .ofList ((trimmed.dropWhile (· ≠ '/')).drop 1))

/-- The paths that `sigv4_auth_middleware` lets through unsigned. -/
def exempt (urlPath : String) : Bool :=
  authExemptPrefixes.any (fun endpoint => urlPath = endpoint || startsWith endpoint urlPath) ||
    (isOperatorRoute urlPath standaloneOperatorPrefixes || isOperatorRoute urlPath ["/_manager"])

/-! ## Routes -/

/-- The handlers of the S3 router that serve objects and listings. -/
inductive Handler where
  | headBucket
  | listObjects
  | headObject
  | getObject
  deriving DecidableEq, Repr

/-- A handler with the bucket and the key that its route captured. -/
structure Target where
  handler : Handler
  bucket : String
  key : String := ""
  deriving DecidableEq, Repr

/-- What `.*` captures up to `$`, which also holds before a line break at the end. -/
def restOfLine (rest : List Char) : Option String :=
  if (rest.dropWhile (· ≠ '\n')).length ≤ 1 ∧ (rest.dropWhile (· ≠ '\n')).drop 1 = [] then
    some (.ofList (rest.takeWhile (· ≠ '\n')))
  else none

/-- The routes `/{bucket}` and `/{bucket}/{key:path}`, with their handlers. -/
def bucketRoute (whole object : Handler) (path : String) : Option Target :=
  match path.toList with
  | '/' :: rest =>
    let bucket := rest.takeWhile (· ≠ '/')
    if bucket = [] then none
    else match rest.dropWhile (· ≠ '/') with
      | [] => some { handler := whole, bucket := .ofList bucket }
      | _ :: key =>
        (restOfLine key).map fun key =>
          { handler := object, bucket := .ofList bucket, key := key }
  | _ => none

/-- The paths of the endpoints that are mounted before the S3 router. -/
def opsRoutes : List String :=
  ["/healthz", "/readyz", "/metrics", "/_admin/stats", "/_admin/quarantine", "/_admin/trace",
    "/_admin/timeline", "/_admin/objects", "/_admin/schemas", "/favicon.ico"]

/-- The configuration that the front door reads. -/
structure Door where
  bucketName : String
  entries : List MountEntry
  storageProxyEnabled : Bool
  requireSigv4 : Bool
  enforceMountAuth : Bool
  /-- The GET paths of the optional consoles. -/
  consoles : String → Bool := fun _ => false

/-- The mount of a bucket. -/
def Door.mount (door : Door) (bucket : String) : Option (ServedMount door.bucketName) :=
  getMount door.storageProxyEnabled (buildMounts door.bucketName door.entries) bucket

/-- The handler of an object or a listing that a method and a path lead to. Only GET
has endpoints before the S3 router. -/
def Door.route (door : Door) (method : Method) (path : String) : Option Target :=
  match method with
  | .head => bucketRoute .headBucket .headObject path
  | .get =>
    if path ∈ opsRoutes ∨ atOrBelow "/_manager" path = true ∨ door.consoles path = true then none
    else bucketRoute .listObjects .getObject path
  | _ => none

/-- A signature is required for the bucket. -/
def Door.requiresSigv4 (door : Door) (bucket : String) : Bool :=
  door.requireSigv4 ||
    (bucket ≠ "" && (door.mount bucket).isSome && door.enforceMountAuth)

/-! ## Requests -/

/-- A request, and what else decides about it. -/
structure Request where
  method : Method
  /-- The path that routes are matched against. -/
  path : String
  /-- `request.url.path`. -/
  urlPath : String
  /-- The identity that `verify_signature` returns, or the code of its refusal. -/
  signature : Except String String
  /-- `internal_monitor_ok`. -/
  internalMonitor : Bool
  /-- The middlewares of the operator routes let the request through. -/
  operatorAdmits : Bool

/-- A verified identity, with the bucket and the key it was authorized for. -/
structure Check where
  identity : String
  bucket : String
  key : String
  deriving DecidableEq, Repr

/-- What `sigv4_auth_middleware` decides: a refusal with its code and message, or to
go on, with what it has checked. -/
def sigv4AuthMiddleware (door : Door) (keys : Keys) (request : Request) :
    Except (String × String) (Option Check) :=
  let path := request.urlPath
  if request.method = .options then .ok none
  else if authExemptPrefixes.any (fun endpoint =>
      path = endpoint || startsWith endpoint path) = true then .ok none
  else if isOperatorRoute path standaloneOperatorPrefixes = true ∨
      isOperatorRoute path ["/_manager"] = true then .ok none
  else if startsWith "/_monitor/api/" path = true ∧ request.internalMonitor = true then .ok none
  else
    let (bucket, key) := bucketKeyFromPath path
    if door.requiresSigv4 bucket = true then
      match request.signature with
      | .error code => .error (code, path)
      | .ok identity =>
        match authorize keys identity bucket key request.method with
        | some denial => .error ("AccessDenied", denial)
        | none => .ok (some ⟨identity, bucket, key⟩)
    else .ok none

/-- What becomes of a request. -/
inductive Outcome where
  | refused (code detail : String)
  | blocked
  | elsewhere
  | reached (target : Target) (check : Option Check)
  deriving DecidableEq, Repr

/-- The way of a request through the middlewares to its handler. -/
def Door.answer (door : Door) (keys : Keys) (request : Request) : Outcome :=
  match sigv4AuthMiddleware door keys request with
  | .error (code, detail) => .refused code detail
  | .ok check =>
    if request.operatorAdmits then
      match door.route request.method request.path with
      | none => .elsewhere
      | some target => .reached target check
    else .blocked

/-- The object or listing handler is reached only by a request whose signature was
verified and whose identity was authorized for the handler's bucket and key. -/
def Guarded (door : Door) (keys : Keys) (request : Request) : Prop :=
  ∀ target check, door.answer keys request = .reached target check →
    ∃ identity, check = some ⟨identity, target.bucket, target.key⟩ ∧
      request.signature = .ok identity ∧
      authorize keys identity target.bucket target.key request.method = none

/-! ## The middleware -/

variable {door : Door} {keys : Keys} {request : Request}

/-- An exempt path is let through without any check. -/
theorem middleware_of_exempt (spared : exempt request.urlPath = true) :
    sigv4AuthMiddleware door keys request = .ok none := by
  simp only [exempt, Bool.or_eq_true] at spared
  unfold sigv4AuthMiddleware
  dsimp only
  split
  · rfl
  rcases spared with endpoint | operator
  · rw [if_pos endpoint]
  · rw [if_pos operator, ite_self]

/-- On any other path it decides by the bucket and the key of that path. -/
theorem middleware_of_not_exempt (reads : request.method.reads = true)
    (held : exempt request.urlPath = false) :
    sigv4AuthMiddleware door keys request =
      let (bucket, key) := bucketKeyFromPath request.urlPath
      if door.requiresSigv4 bucket = true then
        match request.signature with
        | .error code => .error (code, request.urlPath)
        | .ok identity =>
          match authorize keys identity bucket key request.method with
          | some denial => .error ("AccessDenied", denial)
          | none => .ok (some ⟨identity, bucket, key⟩)
      else .ok none := by
  have notMonitor : startsWith "/_monitor/api/" request.urlPath = false := by
    cases monitor : startsWith "/_monitor/api/" request.urlPath with
    | false => rfl
    | true =>
      -- The path of the monitor API is an operator route.
      have below : atOrBelow "/_monitor" request.urlPath = true := by
        refine atOrBelow_iff.mpr (.inr (.trans ?_ (startsWith_iff.mp monitor)))
        decide
      simp [exempt, isOperatorRoute, standaloneOperatorPrefixes, below] at held
  simp only [exempt, Bool.or_eq_false_iff] at held
  obtain ⟨endpoint, standalone, manager⟩ := held
  unfold sigv4AuthMiddleware
  dsimp only
  rw [if_neg, if_neg, if_neg, if_neg]
  · simp [notMonitor]
  · simp [standalone, manager]
  · rw [endpoint]; exact Bool.false_ne_true
  · intro preflight
    rw [preflight] at reads
    cases reads

/-- What the middleware checked, it checked for the bucket and the key of
`request.url.path`. -/
theorem check_sound {check : Check}
    (passed : sigv4AuthMiddleware door keys request = .ok (some check)) :
    request.signature = .ok check.identity ∧
      (check.bucket, check.key) = bucketKeyFromPath request.urlPath ∧
      authorize keys check.identity check.bucket check.key request.method = none := by
  unfold sigv4AuthMiddleware at passed
  dsimp only at passed
  split at passed; · cases passed
  split at passed; · cases passed
  split at passed; · cases passed
  split at passed; · cases passed
  split at passed
  · split at passed
    · cases passed
    next identity verified =>
      split at passed
      · cases passed
      next granted =>
        cases passed
        exact ⟨verified, rfl, granted⟩
  · cases passed

/-! ## The guarantee -/

/-- The requests of one method and path pair, whatever their signature, their
operator credentials and the stored access keys. -/
def AlwaysGuarded (door : Door) (method : Method) (path urlPath : String) : Prop :=
  ∀ (keys : Keys) (signature : Except String String) (internalMonitor operatorAdmits : Bool),
    Guarded door keys { method, path, urlPath, signature, internalMonitor, operatorAdmits }

variable {target : Target}

/-- The requests on a path are guarded when `request.url.path` is not exempt and names
the captured bucket and key. -/
theorem guarded_of_named (reads : request.method.reads = true)
    (routed : door.route request.method request.path = some target)
    (required : door.requiresSigv4 target.bucket = true) (held : exempt request.urlPath = false)
    (named : bucketKeyFromPath request.urlPath = (target.bucket, target.key)) :
    Guarded door keys request := by
  intro reached check answered
  unfold Door.answer at answered
  split at answered
  · cases answered
  next passedCheck passed =>
    split at answered
    · rw [routed] at answered
      cases answered
      cases check with
      | some check =>
        obtain ⟨verified, same, granted⟩ := check_sound passed
        rw [named, Prod.mk.injEq] at same
        refine ⟨check.identity, ?_, verified, ?_⟩
        · rw [← same.1, ← same.2]
        · rw [← same.1, ← same.2]
          exact granted
      | none =>
        rw [middleware_of_not_exempt reads held, named] at passed
        dsimp only at passed
        rw [if_pos required] at passed
        split at passed
        · cases passed
        · split at passed <;> cases passed
    · cases answered

/-- A request that the operator middlewares let through is answered by its handler,
with what the front door checked. -/
theorem answer_eq_reached {check : Option Check} (admitted : request.operatorAdmits = true)
    (routed : door.route request.method request.path = some target)
    (passed : sigv4AuthMiddleware door keys request = .ok check) :
    door.answer keys request = .reached target check := by
  unfold Door.answer
  rw [passed]
  simp only [admitted, if_true, routed]

variable {method : Method}

/-- For every configuration with its accepted mounts, and every path of a GET or HEAD
request that leads to the handler of an object or a listing in a bucket for which
signatures are required: the handler is reached only by verified requests that were
authorized for its bucket and key exactly when `request.url.path` is not exempt and
names that bucket and that key. The bucket may be mounted, the warehouse, or neither. -/
theorem handler_guarded_iff (door : Door) (method : Method) (reads : method.reads = true)
    (path urlPath : String) (target : Target) (routed : door.route method path = some target)
    (required : door.requiresSigv4 target.bucket = true) :
    AlwaysGuarded door method path urlPath ↔
      exempt urlPath = false ∧ bucketKeyFromPath urlPath = (target.bucket, target.key) := by
  constructor
  · intro guarded
    -- A verified request that no stored key restricts gets as far as it can.
    have passes := guarded [] (.ok "reader") false true
    cases spared : exempt urlPath with
    | true =>
      obtain ⟨_, checked, -⟩ := passes target none
        (answer_eq_reached rfl routed (middleware_of_exempt spared))
      cases checked
    | false =>
      refine ⟨rfl, ?_⟩
      have passed : sigv4AuthMiddleware door []
          ⟨method, path, urlPath, .ok "reader", false, true⟩ = _ :=
        middleware_of_not_exempt reads spared
      dsimp only at passed
      have admitted : ∀ identity bucket key, authorize [] identity bucket key method = none := by
        simp [authorize, reads, getAccessKey]
      rw [admitted] at passed
      split at passed
      · obtain ⟨identity, checked, -⟩ := passes target _ (answer_eq_reached rfl routed passed)
        simp only [Option.some.injEq, Check.mk.injEq] at checked
        exact Prod.ext checked.2.1 checked.2.2
      · obtain ⟨_, checked, -⟩ := passes target none (answer_eq_reached rfl routed passed)
        cases checked
  · rintro ⟨held, named⟩ keys signature internalMonitor operatorAdmits
    exact guarded_of_named reads routed required held named

/-- A deployment that serves one mounted bucket and enforces signatures on it. -/
def oneMount (bucket : String) : Door where
  bucketName := "warehouse"
  entries := [{ bucket, root := "/srv/share" }]
  storageProxyEnabled := true
  requireSigv4 := false
  enforceMountAuth := true

/-- The handler of an object in the mounted bucket `data-eu` is guarded. -/
theorem handler_guarded_data : AlwaysGuarded (oneMount "data-eu") .get "/data-eu/a.parquet"
    "/data-eu/a.parquet" :=
  (handler_guarded_iff (oneMount "data-eu") .get rfl _ _ ⟨.getObject, "data-eu", "a.parquet"⟩
    (by decide +kernel) (by decide +kernel)).mpr (by decide +kernel)

/-- An unsigned request for an object of a mounted bucket. -/
def unsigned (path : String) : Request where
  method := .get
  path := path
  urlPath := path
  signature := .error "AccessDenied"
  internalMonitor := false
  operatorAdmits := true

theorem metrics_bucket_reached :
    (oneMount "metrics-eu").answer [] (unsigned "/metrics-eu/a.parquet") =
      .reached ⟨.getObject, "metrics-eu", "a.parquet"⟩ none := by
  decide +kernel

/-- A mount of the bucket `metrics-eu` is accepted and signatures are required for it,
but an unsigned request is answered by the handler of its objects. -/
theorem mounted_bucket_unguarded :
    (oneMount "metrics-eu").requiresSigv4 "metrics-eu" = true ∧
      ¬ Guarded (oneMount "metrics-eu") [] (unsigned "/metrics-eu/a.parquet") := by
  constructor
  · decide +kernel
  · intro guarded
    obtain ⟨_, checked, -⟩ := guarded _ _ metrics_bucket_reached
    cases checked

/-! ## Paths of mounted buckets -/

variable {path : String}

/-- A routed path is a slash, the bucket, and nothing or a slash and more. -/
theorem path_of_bucketRoute {whole object : Handler}
    (routed : bucketRoute whole object path = some target) :
    ∃ tail, path.toList = '/' :: (target.bucket.toList ++ tail) ∧ EndsOrSeparates '/' tail := by
  unfold bucketRoute at routed
  split at routed
  next rest split =>
    dsimp only at routed
    split at routed
    · cases routed
    have parts : rest = rest.takeWhile (· ≠ '/') ++ rest.dropWhile (· ≠ '/') :=
      takeWhile_append_dropWhile.symm
    split at routed
    next ended =>
      cases routed
      refine ⟨[], ?_, .inl rfl⟩
      rw [split, String.toList_ofList, ← ended, ← parts]
    next separator key ended =>
      obtain ⟨_, -, rfl⟩ := Option.map_eq_some_iff.mp routed
      have slash : separator = '/' := by
        have first := head?_dropWhile_not (· ≠ '/') rest
        rw [ended] at first
        simpa using first
      refine ⟨separator :: key, ?_, .inr ⟨key, by rw [slash]⟩⟩
      rw [split, String.toList_ofList, ← ended, ← parts]
  · cases routed

theorem path_of_route (routed : door.route method path = some target) :
    ∃ tail, path.toList = '/' :: (target.bucket.toList ++ tail) ∧ EndsOrSeparates '/' tail := by
  unfold Door.route at routed
  split at routed
  · exact path_of_bucketRoute routed
  · split at routed
    · cases routed
    · exact path_of_bucketRoute routed
  · cases routed

/-- An operator route starts with an underscore, which no valid bucket does. -/
theorem isOperatorRoute_of_validBucket {bucket : String} {tail : List Char}
    {prefixes : List String} (valid : validBucket bucket = true)
    (split : path.toList = '/' :: (bucket.toList ++ tail))
    (underscored : ∀ operator ∈ prefixes, ['/', '_'] <+: operator.toList) :
    isOperatorRoute path prefixes = false := by
  rw [isOperatorRoute, any_eq_false]
  intro operator listed below
  have starts : ['/', '_'] <+: path.toList := by
    rcases atOrBelow_iff.mp below with rfl | under
    · exact underscored _ listed
    · exact (underscored operator listed).trans ((prefix_append _ _).trans under)
  unfold validBucket at valid
  cases chars : bucket.toList with
  | nil => simp [chars] at valid
  | cons first rest =>
    rw [split, chars, cons_append] at starts
    have same : '_' = first :=
      (cons_prefix_cons.mp (cons_prefix_cons.mp starts).2).1
    simp only [chars, ← same, Bool.and_eq_true] at valid
    exact absurd valid.1.1.1 (by decide)

/-- The path of a mounted bucket is exempt just when the bucket's name starts with the
name of an open endpoint. -/
theorem exempt_mounted_iff {mount : ServedMount door.bucketName}
    (routed : door.route method path = some target)
    (mounted : door.mount target.bucket = some mount) :
    exempt path = true ↔
      ∃ endpoint ∈ ["healthz", "readyz", "metrics", "favicon.ico"],
        startsWith endpoint target.bucket = true := by
  obtain ⟨tail, split, ends⟩ := path_of_route routed
  have valid : validBucket target.bucket = true := validBucket_of_getMount mounted
  have standalone : isOperatorRoute path standaloneOperatorPrefixes = false :=
    isOperatorRoute_of_validBucket valid split (by decide)
  have manager : isOperatorRoute path ["/_manager"] = false :=
    isOperatorRoute_of_validBucket valid split (by decide)
  have opens : ∀ endpoint : String, '/' ∉ endpoint.toList →
      (startsWith ("/" ++ endpoint) path = true ↔ startsWith endpoint target.bucket = true) := by
    intro endpoint free
    rw [startsWith_iff, startsWith_iff, split, String.toList_append]
    exact prefix_cons_inj '/' |>.trans (isPrefix_append_iff free ends)
  have listed : authExemptPrefixes =
      ["healthz", "readyz", "metrics", "favicon.ico"].map ("/" ++ ·) := by decide
  have free : ∀ endpoint ∈ ["healthz", "readyz", "metrics", "favicon.ico"],
      '/' ∉ endpoint.toList := by decide
  simp only [exempt, standalone, manager, Bool.or_false, listed, any_map, any_eq_true,
    Function.comp_apply, Bool.or_eq_true, decide_eq_true_eq]
  constructor
  · rintro ⟨endpoint, member, same | starts⟩
    · refine ⟨endpoint, member, (opens endpoint (free endpoint member)).mp ?_⟩
      rw [startsWith_iff, same]
    · exact ⟨endpoint, member, (opens endpoint (free endpoint member)).mp starts⟩
  · rintro ⟨endpoint, member, starts⟩
    exact ⟨endpoint, member, .inr ((opens endpoint (free endpoint member)).mpr starts)⟩

theorem exempt_mounted_metrics : exempt "/metrics-eu/a.parquet" = true :=
  (@exempt_mounted_iff (oneMount "metrics-eu") ⟨.getObject, "metrics-eu", "a.parquet"⟩ .get _ _
    (by decide +kernel) (Option.some_get (by decide +kernel)).symm).mpr ⟨"metrics", by decide⟩

end ShortcutProxy.FrontDoor
