import ShortcutProxy.CalendarDates
import ShortcutProxy.Hmac
import ShortcutProxy.TextParts
import ShortcutProxy.Utf8Codec

/-!
# Verification of request signatures in the native agent

`fsp::sigv4::verify` does on bytes what `verify_signature` does on text. Paths are kept
as they are, but for percent signs that begin no escape; an empty path is a slash. Bytes
of the query that are no UTF-8 are replaced as the Python library does, one replacement
for each longest start of a character. Dates are read digit by digit, and the clock has
whole seconds.
-/

namespace ShortcutProxy.NativeSigV4

open PercentEncoding CalendarDates Hmac TextParts List Segments

/-- `VerificationError`. -/
structure VerificationError where
  code : String
  message : String
  deriving DecidableEq, Repr

/-- `lowercase`. -/
def lowercase (text : Bytes) : Bytes :=
  text.map fun byte => if 65 ≤ byte ∧ byte ≤ 90 then byte + 32 else byte

/-- `whitespace`. -/
def whitespace (byte : UInt8) : Bool :=
  byte = 32 || (9 ≤ byte && byte ≤ 13) || (0x1C ≤ byte && byte ≤ 0x1F)

/-- `trim`. -/
def trim (text : Bytes) : Bytes := strip whitespace text

/-- The loop of `canonical_header`, with the result so far and whether a space is due. -/
def canonicalHeaderFrom : Bytes → Bool → Bytes → Bytes
  | result, _, [] => result
  | result, pendingSpace, byte :: rest =>
    if whitespace byte then canonicalHeaderFrom result (!result.isEmpty) rest
    else canonicalHeaderFrom (result ++ (if pendingSpace then [32, byte] else [byte])) false rest

/-- `canonical_header`. -/
def canonicalHeader (text : Bytes) : Bytes := canonicalHeaderFrom [] false text

/-- The bytes that `uri_encode` keeps. -/
def keptByUriEncode (preserveSlashes : Bool) (byte : UInt8) : Bool :=
  (65 ≤ byte && byte ≤ 90) || (97 ≤ byte && byte ≤ 122) || (48 ≤ byte && byte ≤ 57) ||
    byte = 45 || byte = 95 || byte = 46 || byte = 126 || (preserveSlashes && byte = 47)

/-- `uri_encode`. -/
def uriEncode (preserveSlashes : Bool) (text : Bytes) : Bytes :=
  text.flatMap fun byte => if keptByUriEncode preserveSlashes byte then [byte] else escape byte

/-- What becomes of a byte of a path that begins no escape. -/
def canonicalUriByte (byte : UInt8) : Bytes := if byte = percent then bytes "%25" else [byte]

/-- The loop of `canonical_uri`. -/
def canonicalUriFrom : Bytes → Bytes
  | [] => []
  | [byte] => canonicalUriByte byte
  | [byte, next] => canonicalUriByte byte ++ canonicalUriByte next
  | byte :: high :: low :: rest =>
    if byte = percent ∧ (hexValue high).isSome ∧ (hexValue low).isSome then
      byte :: high :: low :: canonicalUriFrom rest
    else canonicalUriByte byte ++ canonicalUriFrom (high :: low :: rest)
termination_by structural path => path

/-- `canonical_uri`. -/
def canonicalUri (encodedPath : Bytes) : Bytes :=
  if encodedPath = [] then [47] else canonicalUriFrom encodedPath

/-! ## Queries -/

/-- The length that a first byte announces, or zero. -/
def announced (first : UInt8) : Nat :=
  if 0xC2 ≤ first ∧ first ≤ 0xDF then 2
  else if 0xE0 ≤ first ∧ first ≤ 0xEF then 3
  else if 0xF0 ≤ first ∧ first ≤ 0xF4 then 4
  else 0

/-- The bytes at which the inner loop of `replace_invalid_utf8` stops. -/
def stops (first : UInt8) (consumed : Nat) (next : UInt8) : Bool :=
  next < 0x80 || 0xBF < next ||
    (consumed = 1 && ((first = 0xE0 && next < 0xA0) || (first = 0xED && 0x9F < next) ||
      (first = 0xF0 && next < 0x90) || (first = 0xF4 && 0x8F < next)))

/-- The inner loop of `replace_invalid_utf8`: how many bytes are consumed, starting after
the ones already consumed. -/
def consume (first : UInt8) (length : Nat) : Nat → Bytes → Nat
  | consumed, [] => consumed
  | consumed, next :: rest =>
    if length ≤ consumed then consumed
    else if stops first consumed next then consumed
    else consume first length (consumed + 1) rest

/-- The loop of `replace_invalid_utf8`, with the number of bytes still to pass over. -/
def replaceInvalidFrom : Nat → Bytes → Bytes
  | _, [] => []
  | skip + 1, _ :: rest => replaceInvalidFrom skip rest
  | 0, first :: rest =>
    if first < 0x80 then first :: replaceInvalidFrom 0 rest
    else
      let length := announced first
      let consumed := if length ≠ 0 then consume first length 1 rest else 1
      (if length ≠ 0 ∧ consumed = length then first :: rest.take (consumed - 1)
        else [0xEF, 0xBF, 0xBD]) ++ replaceInvalidFrom (consumed - 1) rest

/-- `replace_invalid_utf8`. -/
def replaceInvalidUtf8 (text : Bytes) : Bytes := replaceInvalidFrom 0 text

/-- `uri_decode`. -/
def uriDecode (text : Bytes) : Bytes := replaceInvalidUtf8 (percentDecode id text)

/-- The order of strings, by their bytes. -/
def stringLe (text other : Bytes) : Prop := text.map UInt8.toNat ≤ other.map UInt8.toNat

/-- The order of pairs of strings. -/
def pairLe (pair other : Bytes × Bytes) : Prop :=
  if pair.1 = other.1 then stringLe pair.2 other.2 else stringLe pair.1 other.1

instance : DecidableRel stringLe := fun text other =>
  inferInstanceAs (Decidable (text.map UInt8.toNat ≤ other.map UInt8.toNat))

instance : DecidableRel pairLe := fun pair other => by
  unfold pairLe
  infer_instance

/-- `canonical_query`. -/
def canonicalQuery (query : Bytes) : Bytes :=
  let pairs := ((query.splitOn 38).filter fun part => !part.isEmpty).map fun part =>
    (uriEncode false (uriDecode (before 61 part)),
      uriEncode false (uriDecode (TextParts.after 61 part)))
  (pairs.insertionSort pairLe).foldl
    (fun result pair =>
      (if result.isEmpty then result else result ++ [38]) ++ (pair.1 ++ 61 :: pair.2)) []

/-! ## Signatures -/

variable (hash : Hash)

/-- `fsp::sha256_hex`. -/
def sha256Hex (text : Bytes) : Bytes := hex (hash.digest text)

/-- The bytes that pairs of digits write. -/
def digitPairs : Bytes → Bytes
  | high :: low :: rest =>
    (16 * (hexValue high).getD 0 + (hexValue low).getD 0) :: digitPairs rest
  | _ => []

/-- `digest_bytes`. -/
def digestBytes (text : Bytes) : Bytes := digitPairs (sha256Hex hash text)

/-- `std::string::resize`, filling with zeros. -/
def resize (length : Nat) (text : Bytes) : Bytes :=
  text.take length ++ List.replicate (length - text.length) 0

/-- `hmac_sha256`. -/
def hmacSha256 (key message : Bytes) : Bytes :=
  let key := if 64 < key.length then digestBytes hash key else key
  let key := resize 64 key
  let inner := key.map (· ^^^ 0x36)
  let outer := key.map (· ^^^ 0x5c)
  digestBytes hash (outer ++ digestBytes hash (inner ++ message))

/-- `signing_key`. -/
def signingKey (secret date region service : Bytes) : Bytes :=
  hmacSha256 hash (hmacSha256 hash (hmacSha256 hash (hmacSha256 hash (bytes "AWS4" ++ secret) date)
    region) service) (bytes "aws4_request")

/-- The loop of `signature_equal`. -/
def difference : UInt8 → Bytes → Bytes → UInt8
  | mixed, expected :: others, provided :: rest =>
    difference (mixed ||| (expected ^^^ provided)) others rest
  | mixed, _, _ => mixed

/-- `signature_equal`. -/
def signatureEqual (expected provided : Bytes) : Bool :=
  expected.length = provided.length && difference 0 expected provided = 0

/-! ## Dates -/

/-- `leap_year`. -/
def leapYear (year : Nat) : Bool := year % 4 = 0 && (year % 100 ≠ 0 || year % 400 = 0)

/-- The last day of a month, as `parse_date` bounds the day. -/
def lastDay (year month : Nat) : Nat :=
  monthDays.getD (month - 1) 0 + if month = 2 && leapYear year then 1 else 0

/-- The days before the month, summed month by month. -/
def daysBefore : Nat → Nat
  | 0 => 0
  | month + 1 => daysBefore month + monthDays.getD month 0

/-- The seconds of a date and time since the first day of 1970. -/
def secondsOf (year month day hour minute second : Nat) : Int :=
  let priorYear := year - 1
  let days : Int := 365 * priorYear + (priorYear / 4 : Nat) - (priorYear / 100 : Nat) +
    (priorYear / 400 : Nat) - 719162
  let days := days + daysBefore (month - 1)
  let days := if 2 < month && leapYear year then days + 1 else days
  let days := days + (day - 1 : Nat)
  days * 86400 + hour * 3600 + minute * 60 + second

/-- `parse_date`. -/
def parseDate (date : Bytes) : Option Int :=
  match date with
  | [y1, y2, y3, y4, m1, m2, d1, d2, mark, h1, h2, n1, n2, s1, s2, last] =>
    if mark ≠ 84 ∨ last ≠ 90 then none
    else if ¬ [y1, y2, y3, y4, m1, m2, d1, d2, h1, h2, n1, n2, s1, s2].all isDigit then none
    else
      let year := number [y1, y2, y3, y4]
      let month := number [m1, m2]
      let day := number [d1, d2]
      let hour := number [h1, h2]
      let minute := number [n1, n2]
      let second := number [s1, s2]
      if year = 0 ∨ month < 1 ∨ 12 < month ∨ day < 1 ∨ lastDay year month < day ∨ 23 < hour ∨
          59 < minute ∨ 59 < second then none
      else some (secondsOf year month day hour minute second)
  | _ => none

/-! ## The header -/

/-- The fields of the header that are used. -/
structure Authorization where
  credential : Bytes
  signedHeaders : Bytes
  signature : Bytes
  deriving DecidableEq, Repr

/-- `algorithm`. -/
def algorithm : Bytes := bytes "AWS4-HMAC-SHA256"

/-- One field of the header, if it is one. -/
def authorizationField (item : Bytes) : Option (Bytes × Bytes) :=
  if 61 ∈ item then some (trim (before 61 item), trim (TextParts.after 61 item)) else none

/-- The `Authorization` header taken apart. -/
def parseAuthorization (auth : Option Bytes) : Except VerificationError Authorization :=
  match auth with
  | none => .error ⟨"AccessDenied", "Missing or unsupported Authorization header."⟩
  | some auth =>
    if ¬ algorithm.isPrefixOf auth then
      .error ⟨"AccessDenied", "Missing or unsupported Authorization header."⟩
    else
      let parts := ((trim (auth.drop algorithm.length)).splitOn 44).filterMap authorizationField
      match lastValue (bytes "Credential") parts, lastValue (bytes "SignedHeaders") parts,
          lastValue (bytes "Signature") parts with
      | some credential, some signedHeaders, some signature =>
        .ok { credential, signedHeaders, signature }
      | _, _, _ =>
        .error ⟨"AccessDenied", "Malformed Authorization header: missing required field."⟩

/-- The parts of a credential that vary. -/
structure Scope where
  key : Bytes
  date : Bytes
  region : Bytes
  deriving DecidableEq, Repr

/-- The credential taken apart. -/
def parseScope (credential : Bytes) : Except VerificationError Scope :=
  match credential.splitOn 47 with
  | [key, date, region, service, terminator] =>
    if service ≠ bytes "s3" ∨ terminator ≠ bytes "aws4_request" then
      .error ⟨"AccessDenied", "Unexpected credential scope."⟩
    else .ok { key, date, region }
  | _ => .error ⟨"AccessDenied", "Malformed credential scope."⟩

/-- The check of the presented key. -/
def checkKey (expectedAccessKey presented : Bytes) : Except VerificationError Unit :=
  if presented ≠ expectedAccessKey then
    .error ⟨"InvalidAccessKeyId", "The access key id does not match."⟩
  else .ok ()

/-- The checks of the date against the scope and the clock, which is in seconds. -/
def checkTime (date : Option Bytes) (scopeDate : Bytes) (now : Int) :
    Except VerificationError Bytes :=
  match date with
  | none | some [] => .error ⟨"AccessDenied", "Missing x-amz-date header."⟩
  | some date =>
    match parseDate date with
    | none => .error ⟨"AccessDenied", "Malformed x-amz-date header."⟩
    | some requestSeconds =>
      if scopeDate ≠ date.take 8 then
        .error ⟨"SignatureDoesNotMatch", "Credential scope date does not match x-amz-date."⟩
      else if now - requestSeconds < -900 ∨ 900 < now - requestSeconds then
        .error ⟨"RequestTimeTooSkewed",
          "The difference between the request time and the current time is too large."⟩
      else .ok date

/-- The lines of the signed headers. -/
def canonicalHeaders (headers : List (Bytes × Bytes)) :
    List Bytes → Except VerificationError Bytes
  | [] => .ok []
  | name :: names => do
    match lastValue name headers with
    | none => throw ⟨"SignatureDoesNotMatch", "Signed header not present."⟩
    | some value =>
      let rest ← canonicalHeaders headers names
      return name ++ 58 :: canonicalHeader value ++ 10 :: rest

/-- The names of the signed headers, in order. -/
def signedNames (signedHeaders : Bytes) : List Bytes :=
  ((signedHeaders.splitOn 59).map lowercase).insertionSort stringLe

/-- The canonical request. -/
def canonicalRequest (method encodedPath rawQuery lines : Bytes) (names : List Bytes)
    (payloadHash : Bytes) : Bytes :=
  method ++ 10 :: canonicalUri encodedPath ++ 10 :: canonicalQuery rawQuery ++ 10 ::
    lines ++ 10 :: Segments.joined 59 names ++ 10 :: payloadHash

/-- The signature that is expected. -/
def expectedSignature (secret date : Bytes) (scope : Scope) (request : Bytes) :
    Bytes :=
  let scopeText := scope.date ++ 47 :: scope.region ++ bytes "/s3/aws4_request"
  let stringToSign := algorithm ++ 10 :: date ++ 10 :: scopeText ++ 10 :: sha256Hex hash request
  hex (hmacSha256 hash (signingKey hash secret scope.date scope.region (bytes "s3")) stringToSign)

/-- The comparison of the signatures. -/
def checkSignature (expected provided key : Bytes) : Except VerificationError Bytes :=
  if signatureEqual expected provided then .ok key
  else .error ⟨"SignatureDoesNotMatch", "The request signature does not match."⟩

/-- `verify`. -/
def verify (method encodedPath rawQuery : Bytes) (headers : List (Bytes × Bytes))
    (expectedAccessKey secret : Bytes) (now : Int) : Except VerificationError Bytes := do
  let lower := headers.map fun header => (lowercase header.1, header.2)
  let authorization ← parseAuthorization (lastValue (bytes "authorization") lower)
  let scope ← parseScope authorization.credential
  checkKey expectedAccessKey scope.key
  let date ← checkTime (lastValue (bytes "x-amz-date") lower) scope.date now
  let names := signedNames authorization.signedHeaders
  let lines ← canonicalHeaders lower names
  let payloadHash := (lastValue (bytes "x-amz-content-sha256") lower).getD (sha256Hex hash [])
  let request := canonicalRequest method encodedPath rawQuery lines names payloadHash
  checkSignature (expectedSignature hash secret date scope request) authorization.signature
    scope.key

/-! ## What the loops compute -/

section Headers

/-- What the loop still adds inside a word. -/
def insideWord : Bytes → Bytes
  | [] => []
  | byte :: rest =>
    if whitespace byte then (words whitespace rest).flatMap (32 :: ·)
    else byte :: insideWord rest

theorem words_cons_blank {byte : UInt8} (blank : whitespace byte = true) (rest : Bytes) :
    words whitespace (byte :: rest) = words whitespace rest := by
  rw [words, splitOnP_cons_eq_if_modifyHead, if_pos blank, words]
  rfl

/-- A letter after blanks begins a word. -/
theorem flatMap_words_cons {byte : UInt8} (kept : whitespace byte = false) (rest : Bytes) :
    (words whitespace (byte :: rest)).flatMap (32 :: ·) = 32 :: byte :: insideWord rest := by
  have head : ∀ text : Bytes, ∀ first others, text.splitOnP whitespace = first :: others →
      insideWord text = first ++ (others.filter fun word => !word.isEmpty).flatMap (32 :: ·) := by
    intro text
    induction text with
    | nil =>
      intro first others pieces
      obtain ⟨rfl, rfl⟩ : first = [] ∧ others = [] := by simpa [eq_comm] using pieces
      rfl
    | cons letter text ih =>
      intro first others pieces
      rw [splitOnP_cons_eq_if_modifyHead] at pieces
      rw [insideWord]
      split at pieces
      · next blank =>
        obtain ⟨rfl, rfl⟩ := List.cons.inj pieces
        rw [if_pos blank]
        rfl
      · next other =>
        rw [if_neg other]
        cases split : text.splitOnP whitespace with
        | nil => exact absurd split (splitOnP_ne_nil _ _)
        | cons next more =>
          rw [split] at pieces
          obtain ⟨rfl, rfl⟩ := List.cons.inj pieces
          rw [ih next more split]
          rfl
  cases pieces : rest.splitOnP whitespace with
  | nil => exact absurd pieces (splitOnP_ne_nil _ _)
  | cons first others =>
    rw [words, splitOnP_cons_eq_if_modifyHead, if_neg (by simp [kept]), pieces,
      head rest first others pieces]
    rfl

/-- The loop goes on with the word it is in, or adds the words to come with a space before
each. -/
theorem canonicalHeaderFrom_eq {result : Bytes} (started : result ≠ []) (pending : Bool)
    (text : Bytes) :
    canonicalHeaderFrom result pending text =
      result ++ if pending then (words whitespace text).flatMap (32 :: ·) else insideWord text := by
  induction text generalizing result pending with
  | nil => cases pending <;> simp [canonicalHeaderFrom, words, insideWord]
  | cons byte rest ih =>
    rw [canonicalHeaderFrom]
    by_cases blank : whitespace byte = true
    · have due : (!result.isEmpty) = true := by simpa using started
      rw [if_pos blank, due, ih started, words_cons_blank blank, insideWord,
        if_pos blank]
      cases pending <;> rfl
    · rw [if_neg blank, ih (by simp [started]), append_assoc]
      have kept : whitespace byte = false := by simpa using blank
      cases pending with
      | false => rw [insideWord, if_neg blank]; rfl
      | true => rw [flatMap_words_cons kept]; rfl

theorem joined_cons_eq (first : Bytes) (others : List Bytes) :
    joined 32 (first :: others) = first ++ others.flatMap (32 :: ·) := by
  induction others generalizing first with
  | nil => simp [joined]
  | cons second others ih =>
    rw [joined, intercalate_cons_cons, ← joined, ih]
    simp

/-- A header is its words with single spaces between them. -/
theorem canonicalHeader_eq (text : Bytes) :
    canonicalHeader text = joined 32 (words whitespace text) := by
  rw [canonicalHeader]
  induction text with
  | nil => rfl
  | cons byte rest ih =>
    rw [canonicalHeaderFrom]
    by_cases blank : whitespace byte = true
    · rw [if_pos blank, words_cons_blank blank]
      exact ih
    · have kept : whitespace byte = false := by simpa using blank
      have following := flatMap_words_cons kept rest
      rw [if_neg blank, canonicalHeaderFrom_eq (by simp)]
      cases listed : words whitespace (byte :: rest) with
      | nil => rw [listed] at following; cases following
      | cons first others =>
        rw [listed, flatMap_cons, cons_append] at following
        rw [joined_cons_eq, (List.cons.inj following).2]
        rfl

end Headers

section Replacement

open Utf8Codec

theorem announced_eq (first : UInt8) : announced first = size first := by
  simp only [announced, size, UInt8.le_iff_toNat_le]
  rfl

/-- The inner loop stops at the bytes that do not go on with the character. -/
theorem stops_iff {first next : UInt8} {consumed : Nat} :
    stops first consumed next = true ↔ ¬ goesOn first consumed next := by
  have same : ∀ value : UInt8, first = value ↔ first.toNat = value.toNat :=
    fun value => UInt8.toNat_inj.symm
  simp only [stops, goesOn, isTail, leastSecond, greatestSecond, Bool.or_eq_true,
    Bool.and_eq_true, decide_eq_true_eq, UInt8.lt_iff_toNat_lt, same]
  change (next.toNat < 0x80 ∨ 0xBF < next.toNat) ∨ consumed = 1 ∧
    (((first.toNat = 0xE0 ∧ next.toNat < 0xA0 ∨ first.toNat = 0xED ∧ 0x9F < next.toNat) ∨
      first.toNat = 0xF0 ∧ next.toNat < 0x90) ∨ first.toNat = 0xF4 ∧ 0x8F < next.toNat) ↔ _
  split_ifs <;> omega

theorem consume_eq (first : UInt8) (length consumed : Nat) (rest : Bytes) :
    consume first length consumed rest =
      consumed + taken first (length - consumed) consumed rest := by
  induction rest generalizing consumed with
  | nil =>
    rw [consume]
    cases length - consumed <;> rfl
  | cons next rest ih =>
    rw [consume]
    split
    · next reached => simp [Nat.sub_eq_zero_of_le reached, taken]
    · next owing =>
      obtain ⟨owed, difference⟩ : ∃ owed, length - consumed = owed + 1 :=
        ⟨length - consumed - 1, by omega⟩
      have later : length - (consumed + 1) = owed := by omega
      rw [difference, taken, ih, later]
      by_cases continued : goesOn first consumed next
      · have passes : ¬ stops first consumed next = true :=
          fun stopped => stops_iff.mp stopped continued
        rw [if_neg passes, if_pos continued]
        omega
      · rw [if_pos (stops_iff.mpr continued), if_neg continued, Nat.add_zero]

theorem consumed_eq (first : UInt8) (rest : Bytes) :
    (if announced first ≠ 0 then consume first (announced first) 1 rest else 1) =
      taken first (size first - 1) 1 rest + 1 := by
  rw [announced_eq]
  split
  · rw [consume_eq, Nat.add_comm]
  · next none =>
    have zero : size first = 0 := by omega
    rw [zero]
    rfl

/-- What the loop writes for one character. -/
theorem written_eq {first : UInt8} (high : 0x80 ≤ first.toNat) (rest : Bytes) :
    (if announced first ≠ 0 ∧ taken first (size first - 1) 1 rest + 1 = announced first then
      first :: rest.take (taken first (size first - 1) 1 rest) else [0xEF, 0xBF, 0xBD]) =
      String.utf8EncodeChar
        (decodedChar first (rest.take (taken first (size first - 1) 1 rest))) := by
  have bounds := taken_le first (size first - 1) 1 rest
  have length : (rest.take (taken first (size first - 1) 1 rest)).length =
      taken first (size first - 1) 1 rest := by
    rw [length_take]
    omega
  rw [announced_eq, decodedChar, length]
  by_cases complete : taken first (size first - 1) 1 rest + 1 = size first
  · have all : taken first (size first - 1) 1 rest = size first - 1 := by omega
    rw [if_pos ⟨by omega, complete⟩, if_pos complete, encodeChar_assemble]
    refine ⟨high, by rw [length, complete], ?_⟩
    rw [length, all]
    exact taken_take_of_all all
  · rw [if_neg (fun both => complete both.2), if_neg complete]
    rfl

/-- The loop writes what decoding with replacement reads. -/
theorem replaceInvalidFrom_eq (skip : Nat) (text : Bytes) :
    replaceInvalidFrom skip text = encode (decodeFrom skip text) := by
  induction text generalizing skip with
  | nil => cases skip <;> rfl
  | cons first rest ih =>
    cases skip with
    | succ skip => exact ih skip
    | zero =>
      rw [replaceInvalidFrom, decodeFrom]
      by_cases low : first.toNat < 0x80
      · rw [if_pos (UInt8.lt_iff_toNat_lt.mpr low), if_pos low, encode_cons,
          encodeChar_ascii (by rwa [byteChar_toNat]), byteChar_toNat, UInt8.ofNat_toNat,
          ih]
        rfl
      · rw [if_neg (fun small => low (UInt8.lt_iff_toNat_lt.mp small)), if_neg low]
        simp only [consumed_eq, Nat.add_sub_cancel]
        rw [written_eq (Nat.le_of_not_lt low), ih, encode_cons]

theorem replaceInvalidUtf8_eq (text : Bytes) : replaceInvalidUtf8 text = encode (decode text) :=
  replaceInvalidFrom_eq 0 text

end Replacement

/-- Texts that are not empty are put together with separators between them. -/
theorem foldl_separated {α : Type} (write : α → Bytes) (written : ∀ item, write item ≠ [])
    (items : List α) :
    items.foldl (fun result item =>
      (if result.isEmpty then result else result ++ [38]) ++ write item) [] =
      joined 38 (items.map write) := by
  have following : ∀ (items : List α) (result : Bytes), result ≠ [] →
      items.foldl (fun result item =>
        (if result.isEmpty then result else result ++ [38]) ++ write item) result =
        joined 38 (result :: items.map write) := by
    intro items
    induction items with
    | nil => intro result _; simp [joined]
    | cons item items ih =>
      intro result started
      have nonempty : result.isEmpty = false := by simpa using started
      rw [foldl_cons, nonempty, ih _ (by simp), map_cons,
        joined, joined]
      cases items <;> simp [List.intercalate]
  cases items with
  | nil => rfl
  | cons item items => exact following items (write item) (written item)

theorem digitPairs_hex (text : Bytes) : digitPairs (hex text) = text := by
  induction text with
  | nil => rfl
  | cons byte text ih =>
    have bounded : byte.toNat < 256 := byte.toNat_lt
    have high : (byte / 16).toNat < 16 := by
      rw [UInt8.toNat_div]
      change byte.toNat / 16 < 16
      omega
    have low : (byte % 16).toNat < 16 := by
      rw [UInt8.toNat_mod]
      exact Nat.mod_lt _ (by decide)
    have unfolded : hex (byte :: text) =
        lowerDigit (byte / 16) :: lowerDigit (byte % 16) :: hex text := rfl
    rw [unfolded, digitPairs, hexValue_lowerDigit high, hexValue_lowerDigit low,
      ih, Option.getD_some, Option.getD_some, (hexValue_escape byte).2.2]

theorem digestBytes_eq (text : Bytes) : digestBytes hash text = hash.digest text :=
  digitPairs_hex _

/-- The agent's keyed hash is the standard one. -/
theorem hmacSha256_eq (key message : Bytes) :
    hmacSha256 hash key message = hmac hash key message := by
  have block : resize 64 (if 64 < key.length then hash.digest key else key) =
      blockKey hash key := by
    rw [resize, blockKey]
    change _ = (if 64 < key.length then hash.digest key else key) ++
      List.replicate (64 - (if 64 < key.length then hash.digest key else key).length) 0
    have short : (if 64 < key.length then hash.digest key else key).length ≤ 64 := by
      split
      · rw [hash.length]; decide
      · omega
    rw [take_of_length_le short]
  simp only [hmacSha256, block, digestBytes_eq, hmac]

theorem difference_eq_zero_iff {mixed : UInt8} {expected provided : Bytes}
    (length : expected.length = provided.length) :
    difference mixed expected provided = 0 ↔ mixed = 0 ∧ expected = provided := by
  induction expected generalizing mixed provided with
  | nil =>
    obtain rfl := length_eq_zero_iff.mp length.symm
    simp [difference]
  | cons byte expected ih =>
    cases provided with
    | nil => cases length
    | cons other provided =>
      rw [difference, ih (Nat.succ.inj length), UInt8.or_eq_zero_iff,
        UInt8.xor_eq_zero_iff, List.cons.injEq, and_assoc]

theorem signatureEqual_iff {expected provided : Bytes} :
    signatureEqual expected provided = true ↔ expected = provided := by
  rw [signatureEqual, Bool.and_eq_true, decide_eq_true_eq, decide_eq_true_eq]
  constructor
  · rintro ⟨length, none⟩
    exact ((difference_eq_zero_iff length).mp none).2
  · rintro rfl
    exact ⟨rfl, (difference_eq_zero_iff rfl).mpr ⟨rfl, rfl⟩⟩

/-! ## Dates that are read -/

theorem lastDay_eq (year month : Nat) : lastDay year month = daysInMonth year month := by
  rw [lastDay, daysInMonth, show leapYear year = isLeap year from rfl]
  by_cases february : month = 2
  · subst february
    cases isLeap year <;> rfl
  · simp [february]

theorem daysBefore_eq {month : Nat} (bound : month ≤ 12) :
    daysBefore month = (monthDays.take month).sum := by
  have all : ∀ month : Fin 13, daysBefore month = (monthDays.take month).sum := by decide
  exact all ⟨month, by omega⟩

theorem secondsOf_eq (time : DateTime) :
    secondsOf time.year time.month time.day time.hour time.minute time.second = time.seconds := by
  obtain ⟨yearBound, -⟩ := time.yearBounds
  obtain ⟨dayBound, -⟩ := time.dayBounds
  have monthBound : time.month - 1 ≤ 12 := by have := time.monthBounds; omega
  simp only [secondsOf, DateTime.seconds, DateTime.ordinal, daysBeforeYear, daysBeforeMonth,
    daysBefore_eq monthBound, show leapYear time.year = isLeap time.year from rfl]
  generalize (monthDays.take (time.month - 1)).sum = before
  generalize (decide (2 < time.month) && isLeap time.year) = leaps
  cases leaps with
  | true => rw [if_pos rfl, if_pos rfl]; omega
  | false => rw [if_neg Bool.false_ne_true, if_neg Bool.false_ne_true]; omega

/-- Digits read by `parse_date` are those of a time of the calendar. -/
theorem exists_time {year month day hour minute second : Bytes}
    (lengths : year.length = 4 ∧ month.length = 2 ∧ day.length = 2 ∧ hour.length = 2 ∧
      minute.length = 2 ∧ second.length = 2)
    (digits : ∀ digit ∈ year ++ month ++ day ++ hour ++ minute ++ second, isDigit digit = true)
    (bounds : ¬ (number year = 0 ∨ number month < 1 ∨ 12 < number month ∨ number day < 1 ∨
      lastDay (number year) (number month) < number day ∨ 23 < number hour ∨
      59 < number minute ∨ 59 < number second)) :
    ∃ time : DateTime,
      time.stamp = year ++ month ++ day ++ 84 :: (hour ++ minute ++ second) ++ [90] ∧
      time.seconds = secondsOf (number year) (number month) (number day) (number hour)
        (number minute) (number second) := by
  obtain ⟨yearLength, monthLength, dayLength, hourLength, minuteLength, secondLength⟩ := lengths
  have small := number_lt year fun digit member => digits digit (by simp [member])
  rw [yearLength] at small
  rw [lastDay_eq] at bounds
  let time : DateTime :=
    { year := number year, month := number month, day := number day, hour := number hour,
      minute := number minute, second := number second,
      yearBounds := by omega, monthBounds := by omega, dayBounds := by omega,
      hourBound := by omega, minuteBound := by omega, secondBound := by omega }
  refine ⟨time, ?_, (secondsOf_eq time).symm⟩
  have written : ∀ text : Bytes, (∀ digit ∈ text, isDigit digit = true) → ∀ width,
      text.length = width → padded width (number text) = text := by
    rintro text all _ rfl
    exact padded_number all
  rw [DateTime.stamp, DateTime.dateStamp,
    written year (fun digit member => digits digit (by simp [member])) 4 yearLength,
    written month (fun digit member => digits digit (by simp [member])) 2 monthLength,
    written day (fun digit member => digits digit (by simp [member])) 2 dayLength,
    written hour (fun digit member => digits digit (by simp [member])) 2 hourLength,
    written minute (fun digit member => digits digit (by simp [member])) 2 minuteLength,
    written second (fun digit member => digits digit (by simp [member])) 2 secondLength]

/-- The dates that are read are the times of the calendar, as they are written. -/
theorem parseDate_eq_some_iff {date : Bytes} {seconds : Int} :
    parseDate date = some seconds ↔ ∃ time : DateTime, date = time.stamp ∧ seconds = time.seconds := by
  constructor
  · intro parsed
    unfold parseDate at parsed
    split at parsed
    · next y1 y2 y3 y4 m1 m2 d1 d2 mark h1 h2 n1 n2 s1 s2 last =>
      split at parsed
      · cases parsed
      next marks =>
      split at parsed
      · cases parsed
      next digits =>
      dsimp only at parsed
      split at parsed
      · cases parsed
      next bounds =>
      obtain ⟨rfl, rfl⟩ : mark = 84 ∧ last = 90 := by simpa using marks
      have all : ∀ digit ∈ [y1, y2, y3, y4] ++ [m1, m2] ++ [d1, d2] ++ [h1, h2] ++ [n1, n2] ++
          [s1, s2], isDigit digit = true := by
        simpa using digits
      obtain ⟨time, stamp, counted⟩ := exists_time ⟨rfl, rfl, rfl, rfl, rfl, rfl⟩ all bounds
      exact ⟨time, stamp.symm, by rw [counted, Option.some.inj parsed]⟩
    · cases parsed
  · rintro ⟨time, rfl, rfl⟩
    obtain ⟨y1, y2, y3, y4, m1, m2, d1, d2, h1, h2, n1, n2, s1, s2, stamp, digits, year, month, day,
      hour, minute, second⟩ := time.exists_digits
    have yearBounds := time.yearBounds
    have monthBounds := time.monthBounds
    have dayBounds := time.dayBounds
    have hourBound := time.hourBound
    have minuteBound := time.minuteBound
    have secondBound := time.secondBound
    rw [stamp, parseDate, if_neg (by simp), if_neg (by simpa using digits)]
    simp only [year, month, day, hour, minute, second, lastDay_eq]
    rw [if_neg (by omega), secondsOf_eq]

end ShortcutProxy.NativeSigV4
