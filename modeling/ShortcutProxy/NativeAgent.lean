import ShortcutProxy.PercentEncoding

/-!
# The native agent

The agent of `agent-cpp` serves objects and listings of one bucket from a store
directory and a sorted index of its keys. In `sigv4` mode a request must be signed,
and what it asks for must be an allowed prefix or lie below one: an object request
is judged by its key, a listing by its `prefix` parameter. A listing then shows every
indexed key that starts with that text, page by page.

Texts are lists of bytes. The signature is an oracle, the store directory is a map
from keys to contents without symbolic links, and the Manager's answer to a request
to materialize an object is the store after it. The answers of the health endpoints
are reduced to the word they report.
-/

namespace ShortcutProxy.NativeAgent

open PercentEncoding

def slash : UInt8 := 47

def backslash : UInt8 := 92

/-! ## Texts -/

/-- `url_decode`. -/
def urlDecode : Bytes → Bytes := percentDecode fun byte => if byte = 43 then 32 else byte

/-- `trim_http_value`. -/
def trimHttpValue (value : Bytes) : Bytes :=
  (value.dropWhile fun byte => byte = 32 || byte = 9).rdropWhile fun byte => byte = 32 || byte = 9

/-- The text with slashes in place of backslashes. -/
def withSlashes (text : Bytes) : Bytes :=
  text.map fun byte => if byte = backslash then slash else byte

/-- The text without slashes around it. -/
def trimSlashes (text : Bytes) : Bytes := (text.dropWhile (· = slash)).rdropWhile (· = slash)

/-- `configured_prefixes`. -/
def configuredPrefixes (text : Bytes) : List Bytes :=
  ((text.splitOn 59).map fun piece => trimSlashes (withSlashes (trimHttpValue piece))).filter
    (· ≠ [])

/-- `prefix_is_allowed`. -/
def prefixIsAllowed (candidate : Bytes) (allowedPrefixes : List Bytes) : Bool :=
  allowedPrefixes.isEmpty || allowedPrefixes.any fun allowed =>
    candidate = allowed ||
      (decide (allowed.length < candidate.length) && allowed.isPrefixOf candidate &&
        candidate[allowed.length]? = some slash)

/-- `query_param`. -/
def queryParam (query name : Bytes) : Bytes :=
  match (query.splitOn 38).find? fun part => (name ++ [61]).isPrefixOf part with
  | some part => urlDecode (part.drop (name.length + 1))
  | none => []

/-- `query_has_param`. -/
def queryHasParam (query name : Bytes) : Bool :=
  (query.splitOn 38).any fun part => part.takeWhile (· ≠ 61) = name

/-- `parse_i64`. -/
def parseI64 (text : Bytes) : Option Int :=
  let negative := text.head? = some 45
  let digits := if negative || text.head? = some 43 then text.drop 1 else text
  let value : Nat := digits.foldl (fun read digit => 10 * read + (digit.toNat - 48)) 0
  let limit := if negative then 2 ^ 63 else 2 ^ 63 - 1
  if digits = [] ∨ digits.all (fun byte => 48 ≤ byte && byte ≤ 57) = false ∨ limit < value then none
  else some (if negative then -(value : Int) else value)

/-! ## The index and listings -/

structure IndexedObject where
  key : Bytes
  size : Nat
  deriving DecidableEq, Repr

/-- What the agent serves from: the object index, which every way to load it leaves
sorted, and the store directory. -/
structure State where
  index : List IndexedObject
  sorted : index.Pairwise fun left right => left.key ≤ right.key
  files : Bytes → Option Bytes
  /-- The store after the Manager was asked to materialize an object, if it did. -/
  materialized : Bytes → Option (Bytes → Option Bytes) := fun _ => none
  draining : Bool := false
  generationReady : Bool := true

/-- `std::lower_bound` by the key. -/
def lowerBound (index : List IndexedObject) (key : Bytes) : Nat :=
  (index.takeWhile fun entry => entry.key < key).length

/-- `std::upper_bound` by the key. -/
def upperBound (index : List IndexedObject) (key : Bytes) : Nat :=
  (index.takeWhile fun entry => ¬ key < entry.key).length

/-- The text ends with a delimiter that is not empty. -/
def endsWithDelimiter (delimiter text : Bytes) : Bool :=
  delimiter ≠ [] && delimiter.isSuffixOf text

/-- `continuation_token_valid`. -/
def continuationTokenValid (index : List IndexedObject)
    (keyPrefix token delimiter : Bytes) : Bool :=
  token ≠ [] && keyPrefix.isPrefixOf token &&
    ((index[lowerBound index token]?).any (·.key = token) ||
      (endsWithDelimiter delimiter token && index.any fun entry => token.isPrefixOf entry.key))

/-- One item of a listing: an object, or the common prefix of some. -/
inductive ListItem where
  | contents (key : Bytes) (size : Nat)
  | commonPrefix (value : Bytes)
  deriving DecidableEq, Repr

def ListItem.value : ListItem → Bytes
  | .contents key _ => key
  | .commonPrefix value => value

/-- The position of the first occurrence of a text. -/
def find (part : Bytes) : Bytes → Option Nat
  | [] => if part = [] then some 0 else none
  | byte :: rest =>
    if part.isPrefixOf (byte :: rest) then some 0 else (find part rest).map (· + 1)

/-- The item that an object with this prefix becomes. -/
def itemOf (keyPrefix delimiter : Bytes) (entry : IndexedObject) : ListItem :=
  if delimiter = [] then .contents entry.key entry.size
  else
    let remainder := entry.key.drop keyPrefix.length
    match find delimiter remainder with
    | none => .contents entry.key entry.size
    | some position =>
      .commonPrefix (keyPrefix ++ remainder.take (position + delimiter.length))

/-- The loop of `handle_list` over the index from its first position on: the page, and
what the loop left. -/
def scan (keyPrefix delimiter : Bytes) (pageSize : Nat) :
    List IndexedObject → List ListItem → List ListItem × List IndexedObject
  | [], page => (page, [])
  | entry :: rest, page =>
    if page.length < pageSize ∧ keyPrefix.isPrefixOf entry.key = true then
      let item := itemOf keyPrefix delimiter entry
      match item with
      | .contents .. => scan keyPrefix delimiter pageSize rest (page ++ [item])
      | .commonPrefix _ =>
        -- `emitted_prefixes` holds the common prefixes of the page.
        scan keyPrefix delimiter pageSize rest (if item ∈ page then page else page ++ [item])
    else (page, entry :: rest)

/-- Where a continued listing resumes. -/
def tokenPosition (index : List IndexedObject) (token delimiter : Bytes) : Nat :=
  if endsWithDelimiter delimiter token then
    lowerBound index token +
      ((index.drop (lowerBound index token)).takeWhile fun entry =>
        token.isPrefixOf entry.key).length
  else upperBound index token

/-- What `handle_list` sends. -/
structure Listing where
  keyPrefix : Bytes
  page : List ListItem
  maxKeys : Nat
  truncated : Bool
  nextContinuationToken : Option Bytes
  delimiter : Bytes
  deriving DecidableEq, Repr

/-- `handle_list`. -/
def handleList (index : List IndexedObject) (keyPrefix : Bytes) (maxKeys : Nat)
    (continuationToken delimiter : Bytes) : Listing :=
  let first := lowerBound index keyPrefix
  let first :=
    if continuationToken ≠ [] ∧ first < index.length then
      max first (tokenPosition index continuationToken delimiter)
    else first
  let (page, rest) := scan keyPrefix delimiter maxKeys (index.drop first) []
  let truncated := rest.head?.any fun entry => keyPrefix.isPrefixOf entry.key
  { keyPrefix, page, maxKeys, truncated, delimiter,
    nextContinuationToken := if truncated then page.getLast?.map (·.value) else none }

/-! ## Objects -/

/-- `key_is_basic_safe`. -/
def keyIsBasicSafe (key : Bytes) : Bool :=
  key ≠ [] && !key.contains 0 &&
    !(key.head?.any (fun byte => (65 ≤ byte && byte ≤ 90) || (97 ≤ byte && byte ≤ 122)) &&
      key[1]? = some 58) &&
    !([slash, slash].isPrefixOf key || [backslash, backslash].isPrefixOf key)

/-- `resolve_key_path`: the key of the file below the store's root. -/
def resolveKeyPath (rawKey : Bytes) : Option Bytes :=
  if keyIsBasicSafe rawKey = false then none
  else if rawKey.head? = some slash ∨ rawKey.head? = some backslash then none
  else
    let key := trimSlashes (withSlashes rawKey)
    if key = [] then none
    else if (key.splitOn slash).any (fun segment =>
        segment = [] || segment = [46] || segment = [46, 46]) = true then none
    else some key

/-- What `parse_range_header` makes of a range. -/
inductive RangeResult where
  | whole
  | partly (first last : Int)
  | unsat
  | invalid
  deriving DecidableEq, Repr

/-- `parse_range_header`. -/
def parseRangeHeader (range : Bytes) (total : Int) : RangeResult :=
  if range = [] then .whole
  else if (bytes "bytes=").isPrefixOf range = false ∨ total < 0 then .invalid
  else
    let spec := (range.drop 6).takeWhile (· ≠ 44)
    if spec.contains 45 = false then .invalid
    else
      let before := spec.takeWhile (· ≠ 45)
      let after := (spec.dropWhile (· ≠ 45)).drop 1
      if before = [] then
        match parseI64 after with
        | none => .invalid
        | some count =>
          if count ≤ 0 then .invalid else .partly (total - min count total) (total - 1)
      else match parseI64 before with
        | none => .invalid
        | some first =>
          if first < 0 then .invalid
          else match (if after = [] then some (total - 1) else parseI64 after) with
            | none => .invalid
            | some last =>
              if last < 0 ∧ after ≠ [] then .invalid
              else if first ≥ total then .unsat
              else if min last (total - 1) < first then .unsat
              else .partly first (min last (total - 1))

/-! ## Connections -/

inductive AuthMode where
  | sigv4
  | trustedUpstream
  deriving DecidableEq, Repr

/-- The settings that connections read. A miss is materialized if the mode is lazy
and a Manager is configured. -/
structure Config where
  bucket : Bytes
  s3AuthMode : AuthMode
  s3AllowedPrefixes : Bytes
  lazily : Bool := false

inductive Method where
  | get
  | head
  | other
  deriving DecidableEq, Repr

/-- A request after its line and its headers were read. -/
structure Request where
  method : Method
  target : Bytes
  range : Bytes := []
  transferEncoding : Bool := false
  contentLength : Option Bytes := none
  /-- The code and the message with which `sigv4::verify` rejects the request. -/
  rejection : Option (String × String) := none

/-- What is sent: a fixed body, an error, a listing, or an object. A request for the
head alone gets no body. -/
inductive Response where
  | fixed (status : Nat) (body : String)
  | error (status : Nat) (code message : String) (resource : Bytes)
  | listing (headOnly : Bool) (listing : Listing)
  | object (key : Bytes) (status size : Nat) (first count : Int) (body : Option Bytes)
  deriving DecidableEq, Repr

/-- The file of a key, after the Manager was asked for it if it was missing. -/
def served (config : Config) (state : State) (rawKey key : Bytes) : Option Bytes :=
  match state.files key with
  | some content => some content
  | none =>
    if config.lazily then (state.materialized rawKey).bind fun files => files key else none

/-- `handle_get`. -/
def handleGet (config : Config) (state : State) (rawKey range : Bytes)
    (headOnly : Bool) : Response :=
  match resolveKeyPath rawKey with
  | none => .error 400 "InvalidArgument" "bad key" (slash :: rawKey)
  | some key =>
    match served config state rawKey key with
    | none => .error 404 "NoSuchKey" "The specified key does not exist." (slash :: rawKey)
    | some content =>
      let total := content.length
      match parseRangeHeader range total with
      | .invalid => .error 416 "InvalidRange" "malformed range" (slash :: rawKey)
      | .unsat => .error 416 "InvalidRange" "range not satisfiable" (slash :: rawKey)
      | .whole => .object key 200 total 0 total (if headOnly then none else some content)
      | .partly first last =>
        let count := if total = 0 then 0 else last - first + 1
        .object key 206 total first count
          (if headOnly then none
          else some ((content.drop first.toNat).take count.toNat))

/-- The path of the request as it was sent. -/
def Request.encodedPath (request : Request) : Bytes := request.target.takeWhile (· ≠ 63)

def Request.query (request : Request) : Bytes := (request.target.dropWhile (· ≠ 63)).drop 1

def Request.path (request : Request) : Bytes := urlDecode request.encodedPath

/-- The bucket and the key of the path. -/
def Request.bucketKey (request : Request) : Bytes × Bytes :=
  let path := if request.path.head? = some slash then request.path.drop 1 else request.path
  (path.takeWhile (· ≠ slash), (path.dropWhile (· ≠ slash)).drop 1)

/-- A listing request after it was admitted. -/
def answerListing (state : State) (request : Request) : Response :=
  let query := request.query
  let maxKeys : Option Nat :=
    if queryHasParam query (bytes "max-keys") then
      match parseI64 (queryParam query (bytes "max-keys")) with
      | none => none
      | some parsed => if parsed < 0 ∨ parsed > 1000 then none else some parsed.toNat
    else some 1000
  match maxKeys with
  | none => .error 400 "InvalidArgument" "invalid max-keys" request.path
  | some maxKeys =>
    let keyPrefix := queryParam query (bytes "prefix")
    let continuationToken := queryParam query (bytes "continuation-token")
    let delimiter := queryParam query (bytes "delimiter")
    if continuationToken ≠ [] ∧
        continuationTokenValid state.index keyPrefix continuationToken delimiter = false then
      .error 400 "InvalidArgument" "invalid continuation-token" request.path
    else
      .listing (request.method = .head)
        (handleList state.index keyPrefix maxKeys continuationToken delimiter)

/-- What `handle_connection` judges a request by. -/
def Request.requested (request : Request) : Bytes :=
  if request.bucketKey.2 = [] then queryParam request.query (bytes "prefix")
  else request.bucketKey.2

/-- What a signed request is refused for, if anything. -/
def authRefusal (config : Config) (request : Request) : Option Response :=
  match config.s3AuthMode with
  | .trustedUpstream => none
  | .sigv4 =>
    match request.rejection with
    | some (code, message) => some (.error 403 code message request.path)
    | none =>
      if request.bucketKey.1 = config.bucket ∧
          prefixIsAllowed request.requested (configuredPrefixes config.s3AllowedPrefixes) =
            false then
        some (.error 403 "AccessDenied" "The access key is not authorized for this prefix."
          request.path)
      else none

/-- The requests that are answered before the store is looked at. -/
def answerEarly (state : State) (request : Request) : Option Response :=
  if request.encodedPath.head? ≠ some slash ∨ request.target.contains 35 = true ∨
      wellEncoded request.encodedPath = false then
    some (.error 400 "InvalidRequest" "invalid request target" [slash])
  else if request.transferEncoding = true ∨
      request.contentLength.any (fun length => parseI64 length ≠ some 0) = true then
    some (.error 400 "InvalidRequest" "request bodies are not supported" request.path)
  else if request.path = bytes "/healthz" then some (.fixed 200 "ok")
  else if request.path = bytes "/readyz" then
    let ready := !state.draining && state.generationReady
    some (.fixed (if ready then 200 else 503)
      (if state.draining then "draining" else if ready then "ready" else "not_ready"))
  else if request.path = bytes "/favicon.ico" then some (.fixed 204 "")
  else none

/-- `handle_connection`, once the request line and the headers were read. -/
def handleConnection (config : Config) (state : State) (request : Request) : Response :=
  match answerEarly state request with
  | some response => response
  | none =>
    match authRefusal config request with
    | some response => response
    | none =>
      if request.method = .other then
        .error 405 "MethodNotAllowed" "only GET/HEAD" request.path
      else if request.bucketKey.1 ≠ config.bucket then
        .error 404 "NoSuchBucket" "The specified bucket does not exist."
          (slash :: request.bucketKey.1)
      else if request.bucketKey.2 = [] then answerListing state request
      else handleGet config state request.bucketKey.2 request.range (request.method = .head)

end ShortcutProxy.NativeAgent
