import ShortcutProxy.CalendarDates
import ShortcutProxy.Hmac
import ShortcutProxy.TextParts
import ShortcutProxy.Utf8Codec

/-!
# Verification of request signatures

`verify_signature` reads the `Authorization` header, checks the scope of the credential,
the date and the clock, writes the request in canonical form and compares the keyed hash
of that form with the signature presented. The path is encoded again apart from its
escapes, the query is decoded and encoded again, and headers are reduced to words with
single spaces between them.

The hash, letter case outside ASCII and the reading of dates are the library's. A time is
written with four digits of the year, and reading a written time gives it back.
-/

namespace ShortcutProxy.SigV4

open PercentEncoding Utf8Codec CalendarDates Hmac TextParts Segments

/-- What of the standard library is left open. -/
structure Library where
  /-- `str.lower`. -/
  lower : Text → Text
  lower_ascii : ∀ text : Text, (∀ char ∈ text, char.toNat < 0x80) →
    lower text = text.map .toLower
  /-- `datetime.strptime` with the format of `x-amz-date`. -/
  strptime : Text → Option DateTime
  strptime_stamp : ∀ time : DateTime, strptime (latin1 time.stamp) = some time

/-- What verification raises. -/
inductive Raised where
  | sigV4Error (code message : String)
  | typeError
  deriving DecidableEq, Repr

/-- `str.isspace`, one character at a time. -/
def isSpace (char : Char) : Bool :=
  let code := char.toNat
  (9 ≤ code && code ≤ 13) || (0x1C ≤ code && code ≤ 0x20) || code = 0x85 || code = 0xA0 ||
    code = 0x1680 || (0x2000 ≤ code && code ≤ 0x200A) || code = 0x2028 || code = 0x2029 ||
    code = 0x202F || code = 0x205F || code = 0x3000

/-- `_ALGORITHM`. -/
def algorithm : Text := "AWS4-HMAC-SHA256".toList

/-! ## Canonical forms -/

/-- The bytes that `quote` always keeps. -/
def unreserved (byte : UInt8) : Bool :=
  (65 ≤ byte && byte ≤ 90) || (97 ≤ byte && byte ≤ 122) || (48 ≤ byte && byte ≤ 57) ||
    byte = 45 || byte = 95 || byte = 46 || byte = 126

/-- `quote`, with the bytes it keeps. -/
def quote (safe : UInt8 → Bool) (text : Text) : Text :=
  latin1 ((encode text).flatMap fun byte => if safe byte then [byte] else escape byte)

/-- A name or value of the query, decoded and encoded again. -/
def requote (text : Text) : Text := quote unreserved (codec.unquote text)

/-- The order of two texts, by the numbers of their characters. -/
def textLe (text other : Text) : Prop := text.map Char.toNat ≤ other.map Char.toNat

/-- The order of two pairs of texts. -/
def pairLe (pair other : Text × Text) : Prop :=
  if pair.1 = other.1 then textLe pair.2 other.2 else textLe pair.1 other.1

instance : DecidableRel textLe := fun text other =>
  inferInstanceAs (Decidable (text.map Char.toNat ≤ other.map Char.toNat))

instance : DecidableRel pairLe := fun pair other => by
  unfold pairLe
  infer_instance

/-- `_canonical_query`. -/
def canonicalQuery (query : Text) : Text :=
  let pairs := ((query.splitOn '&').filter fun pair => !pair.isEmpty).map fun pair =>
    (requote (before '=' pair), requote (after '=' pair))
  joined '&' ((pairs.insertionSort pairLe).map fun pair => pair.1 ++ '=' :: pair.2)

/-- A hexadecimal digit. -/
def isHex (char : Char) : Bool := "0123456789abcdefABCDEF".toList.contains char

/-- The bytes of a path that are not encoded. -/
def pathSafe (byte : UInt8) : Bool := unreserved byte || byte = 47

/-- `_canonical_uri`. -/
def canonicalUri : Text → Text
  | [] => []
  | [char] => quote pathSafe [char]
  | [char, next] => quote pathSafe [char] ++ quote pathSafe [next]
  | char :: high :: low :: rest =>
    if char = '%' && isHex high && isHex low then char :: high :: low :: canonicalUri rest
    else quote pathSafe [char] ++ canonicalUri (high :: low :: rest)
termination_by structural path => path

/-- `_trim`. -/
def trim (value : Text) : Text := joined ' ' (words isSpace value)

/-! ## The header -/

/-- The three fields of an `Authorization` header. -/
structure Authorization where
  credential : Text
  signedHeaders : List Text
  signature : Text
  deriving DecidableEq, Repr

/-- One field of the header, if it is one. -/
def authorizationField (item : Text) : Option (Text × Text) :=
  let item := strip isSpace item
  if '=' ∈ item then some (strip isSpace (before '=' item), strip isSpace (after '=' item))
  else none

/-- A field that the header must have. -/
def required (parts : List (Text × Text)) (name : String) : Except Raised Text :=
  match lastValue name.toList parts with
  | some value => .ok value
  | none => .error (.sigV4Error "AccessDenied"
      ("Malformed Authorization header: missing '" ++ name ++ "'."))

/-- `_parse_authorization`. -/
def parseAuthorization (header : Text) : Except Raised Authorization := do
  if header = [] ∨ ¬ algorithm.isPrefixOf header then
    throw (.sigV4Error "AccessDenied" "Missing or unsupported Authorization header.")
  else
    let rest := strip isSpace (header.drop algorithm.length)
    let parts := (rest.splitOn ',').filterMap authorizationField
    let credential ← required parts "Credential"
    let signedHeaders ← required parts "SignedHeaders"
    let signature ← required parts "Signature"
    return { credential, signedHeaders := signedHeaders.splitOn ';', signature }

/-- The parts of a credential that vary. -/
structure Scope where
  key : Text
  date : Text
  region : Text
  deriving DecidableEq, Repr

/-- The credential taken apart. -/
def parseScope (credential : Text) : Except Raised Scope :=
  match credential.splitOn '/' with
  | [key, date, region, service, terminator] =>
    if service ≠ "s3".toList ∨ terminator ≠ "aws4_request".toList then
      .error (.sigV4Error "AccessDenied" "Unexpected credential scope.")
    else .ok { key, date, region }
  | _ => .error (.sigV4Error "AccessDenied" "Malformed credential scope.")

/-- Where the signing secret comes from: one configured key, or a resolver. -/
inductive Keys where
  | single (accessKeyId : Text) (secretAccessKey : Text)
  | resolver (resolve : Text → Option Text)

/-- The secret of a presented key. -/
def Keys.secretFor (presented : Text) : Keys → Except Raised Text
  | .single accessKeyId secret =>
    if presented ≠ accessKeyId then
      .error (.sigV4Error "InvalidAccessKeyId" "The access key id does not match.")
    else .ok secret
  | .resolver resolve =>
    match resolve presented with
    | none | some [] =>
      .error (.sigV4Error "InvalidAccessKeyId" "The access key id is not recognized.")
    | some secret => .ok secret

/-- `_DEFAULT_MAX_CLOCK_SKEW_SECONDS`, in microseconds. -/
def maxClockSkew : Nat := 900 * 1000000

/-- The checks of the date against the scope and the clock, which is in microseconds. -/
def checkTime (library : Library) (amzDate : Option Text) (dateStamp : Text) (now : Int) :
    Except Raised Text :=
  match amzDate with
  | none | some [] => .error (.sigV4Error "AccessDenied" "Missing x-amz-date header.")
  | some amzDate =>
    match library.strptime amzDate with
    | none => .error (.sigV4Error "AccessDenied" "Malformed x-amz-date header.")
    | some time =>
      if latin1 time.stamp ≠ amzDate then
        .error (.sigV4Error "AccessDenied" "Malformed x-amz-date header.")
      else if dateStamp ≠ latin1 time.dateStamp then
        .error (.sigV4Error "SignatureDoesNotMatch"
          "Credential scope date does not match x-amz-date.")
      else if maxClockSkew < (now - time.seconds * 1000000).natAbs then
        .error (.sigV4Error "RequestTimeTooSkewed"
          "The difference between the request time and the current time is too large.")
      else .ok amzDate

/-! ## Signatures -/

/-- `sha256(...).hexdigest()`. -/
def hexdigest (hash : Hash) (text : Bytes) : Text := latin1 (hex (hash.digest text))

/-- `_hmac`. -/
def hmacText (hash : Hash) (key : Bytes) (message : Text) : Bytes := hmac hash key (encode message)

/-- `_derive_signing_key`. -/
def deriveSigningKey (hash : Hash) (secret dateStamp region service : Text) : Bytes :=
  let kDate := hmacText hash (encode ("AWS4".toList ++ secret)) dateStamp
  let kRegion := hmacText hash kDate region
  let kService := hmacText hash kRegion service
  hmacText hash kService "aws4_request".toList

/-- The check of the payload hash against a body. -/
def checkBody (library : Library) (hash : Hash) (contentSha256 : Option Text) :
    Option Bytes → Except Raised Unit
  | none => .ok ()
  | some body =>
    match contentSha256 with
    | none => .error (.sigV4Error "AccessDenied" "Missing x-amz-content-sha256 header.")
    | some payloadHash =>
      if payloadHash = "UNSIGNED-PAYLOAD".toList then
        .error (.sigV4Error "AccessDenied"
          "UNSIGNED-PAYLOAD is not allowed for requests with a body.")
      else if (library.lower payloadHash).any fun char => 0x80 ≤ char.toNat then
        .error .typeError
      else if hexdigest hash body ≠ library.lower payloadHash then
        .error (.sigV4Error "XAmzContentSHA256Mismatch"
          "The provided x-amz-content-sha256 does not match the request body.")
      else .ok ()

/-- The lines of the signed headers. -/
def canonicalHeaders (headers : List (Text × Text)) : List Text → Except Raised Text
  | [] => .ok []
  | name :: names => do
    match lastValue name headers with
    | none => throw (.sigV4Error "SignatureDoesNotMatch"
        ("Signed header '" ++ .ofList name ++ "' not present."))
    | some value =>
      let rest ← canonicalHeaders headers names
      return name ++ ':' :: trim value ++ '\n' :: rest

/-- The canonical request. -/
def canonicalRequest (method path query lines : Text) (names : List Text) (payloadHash : Text) :
    Text :=
  method ++ '\n' :: canonicalUri path ++ '\n' :: canonicalQuery query ++ '\n' ::
    lines ++ '\n' :: joined ';' names ++ '\n' :: payloadHash

/-- The signature that is expected. -/
def expectedSignature (hash : Hash) (secret amzDate : Text) (scope : Scope) (request : Text) :
    Text :=
  let scopeText := scope.date ++ '/' :: scope.region ++ '/' :: "s3".toList ++
    '/' :: "aws4_request".toList
  let stringToSign := algorithm ++ '\n' :: amzDate ++ '\n' :: scopeText ++
    '\n' :: hexdigest hash (encode request)
  let signingKey := deriveSigningKey hash secret scope.date scope.region "s3".toList
  latin1 (hex (hmacText hash signingKey stringToSign))

/-- `hmac.compare_digest` and what follows it; texts that are not ASCII are a type error. -/
def checkSignature (expected provided key : Text) : Except Raised Text :=
  if provided.any fun char => 0x80 ≤ char.toNat then .error .typeError
  else if expected ≠ provided then
    .error (.sigV4Error "SignatureDoesNotMatch" "The request signature does not match.")
  else .ok key

/-- `verify_signature`. -/
def verifySignature (library : Library) (hash : Hash) (keys : Keys) (method path query : Text)
    (headers : List (Text × Text)) (requestBody : Option Bytes) (now : Int) :
    Except Raised Text := do
  let lower := headers.map fun header => (library.lower header.1, header.2)
  let auth := (lastValue "authorization".toList lower).getD []
  let authorization ← parseAuthorization auth
  let scope ← parseScope authorization.credential
  let secret ← keys.secretFor scope.key
  let amzDate ← checkTime library (lastValue "x-amz-date".toList lower) scope.date now
  let contentSha256 := lastValue "x-amz-content-sha256".toList lower
  checkBody library hash contentSha256 requestBody
  let names := (authorization.signedHeaders.map library.lower).insertionSort textLe
  let lines ← canonicalHeaders lower names
  let request := canonicalRequest method path query lines names
    (contentSha256.getD (hexdigest hash []))
  checkSignature (expectedSignature hash secret amzDate scope request) authorization.signature
    scope.key

/-- The path that the front door hands over for the bytes of a request. -/
def canonicalPath (rawPath : Bytes) : Text :=
  rawPath.flatMap fun byte => latin1 (if byte < 0x80 then [byte] else escape byte)

end ShortcutProxy.SigV4
