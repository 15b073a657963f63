import ShortcutProxy.Fallible
import ShortcutProxy.NativeSigV4
import ShortcutProxy.SigV4

/-!
# The two verifiers of request signatures

The Python verifier reads a request as text: header values by their bytes as characters,
the path with its high bytes as escapes. The native verifier reads the bytes. Step by
step they compute the same on ASCII: the fields of the header, the scope, the date, the
names and lines of the signed headers, the query, and the keyed hash of it all.

They part in what the native verifier leaves as it came. It keeps the bytes of a path
that Python encodes, so the verdicts agree on paths that clients have encoded. It hashes
the bytes of a header where Python hashes the encoding of characters, so they agree on
header values in ASCII. And it drops the fraction of a second of the clock.
-/

namespace ShortcutProxy.SigV4Agreement

open PercentEncoding Utf8Codec CalendarDates Hmac TextParts Fallible NativeSigV4 List Char Segments

/-- The headers of a request. A name is of ASCII, and occurs once up to letter case. -/
structure Headers where
  entries : List (Bytes × Bytes)
  ascii : ∀ entry ∈ entries, IsAscii entry.1
  distinct : (entries.map fun entry => lowercase entry.1).Nodup

/-- A request without a body, as it arrives. -/
structure Request where
  method : Text
  rawPath : Bytes
  query : Text
  headers : Headers

/-- The value of a header, by its name in lower case. -/
def Headers.find (headers : Headers) (name : Bytes) : Option Bytes :=
  lastValue name (headers.entries.map fun entry => (lowercase entry.1, entry.2))

variable (library : SigV4.Library)

/-- The Python verifier accepts the request, at a clock in microseconds. -/
def pythonAccepts (hash : Hash) (keys : SigV4.Keys) (request : Request) (now : Int) : Bool :=
  (SigV4.verifySignature library hash keys request.method (SigV4.canonicalPath request.rawPath)
    request.query (request.headers.entries.map fun entry => (latin1 entry.1, latin1 entry.2))
    none now).isOk

/-- The native verifier accepts the request, at a clock in microseconds. -/
def nativeAccepts (hash : Hash) (accessKeyId secret : Text) (request : Request)
    (now : Int) : Bool :=
  (verify hash (encode request.method) request.rawPath (encode request.query)
    request.headers.entries (encode accessKeyId) (encode secret) (now / 1000000)).isOk

/-! ## ASCII -/

variable {byte : UInt8} {text : Bytes}

/-- What the two verifiers say of single ASCII bytes, gone through one by one. -/
theorem ascii_table (low : byte.toNat < 0x80) :
    SigV4.isSpace (ofNat byte.toNat) = whitespace byte ∧
      (ofNat byte.toNat).toLower =
        ofNat (if 65 ≤ byte ∧ byte ≤ 90 then byte + 32 else byte).toNat ∧
      (if 65 ≤ byte ∧ byte ≤ 90 then byte + 32 else byte).toNat < 0x80 :=
  forall_ascii byte low (by decide +kernel)

/-- What they say of single bytes. -/
theorem byte_table (byte : UInt8) :
    ((if keptByUriEncode false byte then [byte] else escape byte).all
        fun written => written.toNat < 0x80) = true ∧
      (SigV4.pathSafe byte = true ∨ byte = percent → byte.toNat < 0x80) ∧
      SigV4.isHex (ofNat byte.toNat) = (hexValue byte).isSome ∧
      ([lowerDigit (byte / 16), lowerDigit (byte % 16)].all fun digit => digit.toNat < 0x80) = true :=
  forall_byte byte (by decide +kernel)

theorem isSpace_byteChar (low : byte.toNat < 0x80) :
    SigV4.isSpace (ofNat byte.toNat) = whitespace byte :=
  (ascii_table low).1

theorem strip_latin1 (ascii : IsAscii text) :
    strip SigV4.isSpace (latin1 text) = latin1 (trim text) := by
  rw [latin1, strip_map, trim, latin1]
  congr 1
  exact strip_congr fun byte member => isSpace_byteChar (ascii byte member)

theorem trim_latin1 (ascii : IsAscii text) :
    SigV4.trim (latin1 text) = latin1 (canonicalHeader text) := by
  have same : words (SigV4.isSpace ∘ fun byte : UInt8 => ofNat byte.toNat) text =
      words whitespace text :=
    words_congr fun byte member => isSpace_byteChar (ascii byte member)
  rw [SigV4.trim, latin1, words_map, same, canonicalHeader_eq]
  exact joined_map (fun byte : UInt8 => ofNat byte.toNat) 32 _

/-- A field is the same whether the blanks around it are dropped before it is cut or not. -/
theorem authorizationField_latin1 {item : Bytes} (ascii : IsAscii item) :
    SigV4.authorizationField (latin1 item) =
      (authorizationField item).map fun field => (latin1 field.1, latin1 field.2) := by
  have kept : whitespace 61 = false := rfl
  have trimmed : IsAscii (trim item) := ascii.of_subset fun _ => mem_of_mem_strip
  have cutBefore : before '=' (latin1 (trim item)) =
      latin1 (before 61 (trim item)) := before_map byteChar_injective 61 _
  have cutAfter : after '=' (latin1 (trim item)) =
      latin1 (TextParts.after 61 (trim item)) := after_map byteChar_injective 61 _
  have present : '=' ∈ latin1 (trim item) ↔ 61 ∈ item := by
    rw [← mem_strip_iff kept]
    exact @List.mem_map_of_injective _ _ _ byteChar_injective 61 _
  simp only [SigV4.authorizationField, authorizationField, strip_latin1 ascii, present,
    cutBefore, cutAfter]
  by_cases member : 61 ∈ item
  · obtain ⟨first, second⟩ := strip_cut_strip kept member
    rw [if_pos member, if_pos member, strip_latin1 (trimmed.of_subset fun _ => mem_of_mem_before),
      strip_latin1 (trimmed.of_subset fun _ => mem_of_mem_after)]
    change some (latin1 (strip whitespace (before 61 (strip whitespace item))),
      latin1 (strip whitespace (TextParts.after 61 (strip whitespace item)))) = _
    rw [first, second]
    rfl
  · rw [if_neg member, if_neg member]
    rfl

/-- The fields of a header in ASCII. -/
def fields (authorization : Authorization) : SigV4.Authorization :=
  { credential := latin1 authorization.credential
    signedHeaders := (authorization.signedHeaders.splitOn 59).map latin1
    signature := latin1 authorization.signature }

/-- The assignments of a header in ASCII. -/
theorem parts_latin1 (ascii : IsAscii text) :
    ((latin1 text).splitOn ',').filterMap SigV4.authorizationField =
      ((text.splitOn 44).filterMap authorizationField).map
        fun field => (latin1 field.1, latin1 field.2) := by
  have pieces : (latin1 text).splitOn ',' = (text.splitOn 44).map latin1 :=
    splitOn_map byteChar_injective 44 text
  rw [pieces, filterMap_map, map_filterMap]
  refine filterMap_congr fun item listed => ?_
  exact authorizationField_latin1 (ascii.of_subset fun _ => mem_of_mem_splitOn listed)

theorem lastValue_latin1 (name : Bytes) (assignments : List (Bytes × Bytes)) :
    lastValue (latin1 name) (assignments.map fun entry => (latin1 entry.1, latin1 entry.2)) =
      (lastValue name assignments).map latin1 :=
  lastValue_map latin1_injective latin1 name assignments

theorem algorithm_isPrefixOf (auth : Bytes) :
    (latin1 auth = [] ∨ ¬ SigV4.algorithm.isPrefixOf (latin1 auth) = true) ↔
      ¬ algorithm.isPrefixOf auth = true := by
  have written : SigV4.algorithm = latin1 algorithm := by decide
  have same : SigV4.algorithm.isPrefixOf (latin1 auth) = true ↔
      algorithm.isPrefixOf auth = true := by
    rw [List.isPrefixOf_iff_prefix, isPrefixOf_iff_prefix, written]
    exact prefix_map_iff_of_injective byteChar_injective
  rw [same]
  constructor
  · rintro (empty | other)
    · rw [map_eq_nil_iff.mp empty]
      decide
    · exact other
  · exact .inr

theorem parseAuthorization_latin1 {auth : Bytes} (ascii : IsAscii auth) :
    (SigV4.parseAuthorization (latin1 auth)).toOption =
      (parseAuthorization (some auth)).toOption.map fields := by
  have dropped : (latin1 auth).drop SigV4.algorithm.length =
      latin1 (auth.drop algorithm.length) := map_drop.symm
  have rest : IsAscii (auth.drop algorithm.length) :=
    ascii.of_subset fun _ => mem_of_mem_drop
  have trimmed : IsAscii (trim (auth.drop algorithm.length)) :=
    rest.of_subset fun _ => mem_of_mem_strip
  rw [SigV4.parseAuthorization, parseAuthorization]
  simp only [algorithm_isPrefixOf, dropped, strip_latin1 rest, parts_latin1 trimmed]
  split
  · rfl
  · generalize ((trim (auth.drop algorithm.length)).splitOn 44).filterMap
      authorizationField = parts
    have credential : lastValue "Credential".toList (parts.map _) = _ :=
      lastValue_latin1 (bytes "Credential") parts
    have signedHeaders : lastValue "SignedHeaders".toList (parts.map _) = _ :=
      lastValue_latin1 (bytes "SignedHeaders") parts
    have signature : lastValue "Signature".toList (parts.map _) = _ :=
      lastValue_latin1 (bytes "Signature") parts
    simp only [SigV4.required, credential, signedHeaders, signature]
    cases lastValue (bytes "Credential") parts with
    | none => rfl
    | some first =>
      cases lastValue (bytes "SignedHeaders") parts with
      | none => rfl
      | some second =>
        cases lastValue (bytes "Signature") parts with
        | none => rfl
        | some third =>
          have names : (latin1 second).splitOn ';' = (second.splitOn 59).map latin1 :=
            splitOn_map byteChar_injective 59 second
          simp only [Option.map_some]
          change some _ = some _
          rw [fields, ← names]

/-- What is read from a header in ASCII is of ASCII. -/
theorem parseAuthorization_ascii {auth : Bytes} {authorization : Authorization}
    (ascii : IsAscii auth)
    (parsed : parseAuthorization (some auth) = .ok authorization) :
    IsAscii authorization.credential ∧ IsAscii authorization.signedHeaders ∧
      IsAscii authorization.signature := by
  have value : ∀ {name text : Bytes},
      lastValue name (((trim (auth.drop algorithm.length)).splitOn 44).filterMap
        authorizationField) = some text → IsAscii text := by
    intro name text found
    obtain ⟨item, listed, field⟩ := mem_filterMap.mp (mem_of_lastValue found)
    rw [authorizationField] at field
    split at field
    · obtain ⟨-, rfl⟩ := Prod.mk.inj (Option.some.inj field)
      refine ascii.of_subset fun byte member => ?_
      have inside := mem_of_mem_splitOn listed (mem_of_mem_after (mem_of_mem_strip member))
      exact mem_of_mem_drop (mem_of_mem_strip inside)
    · cases field
  rw [parseAuthorization] at parsed
  split at parsed
  · cases parsed
  · dsimp only at parsed
    split at parsed
    · next credential signedHeaders signature =>
      cases parsed
      exact ⟨value credential, value signedHeaders, value signature⟩
    · cases parsed

/-! ## The scope, the key and the date -/

/-- The scope of a credential in ASCII. -/
def scopeText (scope : Scope) : SigV4.Scope :=
  { key := latin1 scope.key, date := latin1 scope.date, region := latin1 scope.region }

theorem parseScope_latin1 (credential : Bytes) :
    (SigV4.parseScope (latin1 credential)).toOption =
      (parseScope credential).toOption.map scopeText := by
  have pieces : (latin1 credential).splitOn '/' = (credential.splitOn 47).map latin1 :=
    splitOn_map byteChar_injective 47 credential
  have service : ∀ text, latin1 text ≠ "s3".toList ↔ text ≠ bytes "s3" :=
    fun _ => latin1_injective.ne_iff' rfl
  have terminator : ∀ text, latin1 text ≠ "aws4_request".toList ↔ text ≠ bytes "aws4_request" :=
    fun _ => latin1_injective.ne_iff' rfl
  rw [SigV4.parseScope, parseScope, pieces]
  match credential.splitOn 47 with
  | [] | [_] | [_, _] | [_, _, _] | [_, _, _, _] | _ :: _ :: _ :: _ :: _ :: _ :: _ => rfl
  | [key, date, region, third, fourth] =>
    simp only [map_cons, map_nil, service, terminator]
    split <;> rfl

theorem parseScope_ascii {credential : Bytes} {scope : Scope}
    (ascii : IsAscii credential) (parsed : parseScope credential = .ok scope) :
    IsAscii scope.key ∧ IsAscii scope.date ∧ IsAscii scope.region := by
  have part : ∀ text ∈ credential.splitOn 47, IsAscii text :=
    fun text listed => ascii.of_subset fun _ => mem_of_mem_splitOn listed
  rw [parseScope] at parsed
  split at parsed
  · next key date region service terminator listed =>
    split at parsed
    · cases parsed
    · cases parsed
      rw [listed] at part
      exact ⟨part key (by simp), part date (by simp), part region (by simp)⟩
  · cases parsed

theorem encode_injective : Function.Injective encode := fun text other same => by
  rw [← decode_encode text, same, decode_encode]

/-- The Python verifier knows one key, with its secret. -/
def KnowsOnly (keys : SigV4.Keys) (accessKeyId secret : Text) : Prop :=
  ∀ presented, (keys.secretFor presented).toOption =
    if presented = accessKeyId then some secret else none

theorem secretFor_latin1 {keys : SigV4.Keys} {accessKeyId secret : Text}
    (knows : KnowsOnly keys accessKeyId secret) {presented : Bytes} (ascii : IsAscii presented) :
    (keys.secretFor (latin1 presented)).toOption =
      (checkKey (encode accessKeyId) presented).toOption.map fun _ => secret := by
  have same : latin1 presented = accessKeyId ↔ presented = encode accessKeyId := by
    rw [← encode_injective.eq_iff, encode_latin1 ascii]
  rw [knows, checkKey]
  by_cases equal : presented = encode accessKeyId
  · rw [if_pos (same.mpr equal), if_neg (not_not_intro equal)]
    rfl
  · rw [if_neg (fun held => equal (same.mp held)), if_pos equal]
    rfl

/-- The clock is not within the second after the last at which a request is accepted. -/
def ClockApart (headers : Headers) (now : Int) : Prop :=
  ∀ time : DateTime, headers.find (bytes "x-amz-date") = some time.stamp →
    ¬ ((time.seconds + 900) * 1000000 < now ∧ now < (time.seconds + 901) * 1000000)

variable {now : Int}

theorem skewed_iff {seconds : Int}
    (apart : ¬ ((seconds + 900) * 1000000 < now ∧ now < (seconds + 901) * 1000000)) :
    SigV4.maxClockSkew < (now - seconds * 1000000).natAbs ↔
      now / 1000000 - seconds < -900 ∨ 900 < now / 1000000 - seconds := by
  unfold SigV4.maxClockSkew
  omega

/-- The date of a header that is there, as Python checks it. -/
theorem checkTime_some {date dateStamp : Text} (present : date ≠ []) {checked : Text} :
    SigV4.checkTime library (some date) dateStamp now = .ok checked ↔
      checked = date ∧ ∃ time : DateTime, date = latin1 time.stamp ∧
        dateStamp = latin1 time.dateStamp ∧
        ¬ SigV4.maxClockSkew < (now - time.seconds * 1000000).natAbs := by
  obtain ⟨first, rest, rfl⟩ := exists_cons_of_ne_nil present
  unfold SigV4.checkTime
  dsimp only
  constructor
  · intro accepted
    split at accepted
    · cases accepted
    next time parsed =>
    split_ifs at accepted with stamp scope clock
    exact ⟨(Except.ok.inj accepted).symm, time, (not_not.mp stamp).symm, not_not.mp scope, clock⟩
  · rintro ⟨rfl, time, stamp, rfl, clock⟩
    simp only [stamp, library.strptime_stamp, ne_eq, not_true_eq_false, if_false, clock]

theorem nativeCheckTime_some {date scopeDate : Bytes} (present : date ≠ [])
    {checked : Bytes} :
    checkTime (some date) scopeDate now = .ok checked ↔
      checked = date ∧ ∃ time : DateTime, date = time.stamp ∧ scopeDate = time.dateStamp ∧
        ¬ (now - time.seconds < -900 ∨ 900 < now - time.seconds) := by
  obtain ⟨first, rest, rfl⟩ := exists_cons_of_ne_nil present
  unfold checkTime
  dsimp only
  constructor
  · intro accepted
    split at accepted
    · cases accepted
    next seconds parsed =>
    obtain ⟨time, stamp, rfl⟩ := parseDate_eq_some_iff.mp parsed
    split_ifs at accepted with scope clock
    rw [stamp, time.stamp_take] at scope
    exact ⟨(Except.ok.inj accepted).symm, time, stamp, not_not.mp scope, clock⟩
  · rintro ⟨rfl, time, stamp, rfl, clock⟩
    rw [stamp, parseDate_eq_some_iff.mpr ⟨time, rfl, rfl⟩]
    simp only [time.stamp_take, ne_eq, not_true_eq_false, if_false, if_neg clock]

theorem checkTime_latin1 {date : Option Bytes} (scopeDate : Bytes)
    (apart : ∀ time : DateTime, date = some time.stamp →
      ¬ ((time.seconds + 900) * 1000000 < now ∧ now < (time.seconds + 901) * 1000000)) :
    (SigV4.checkTime library (date.map latin1) (latin1 scopeDate) now).toOption =
      (checkTime date scopeDate (now / 1000000)).toOption.map latin1 := by
  match date with
  | none | some [] => rfl
  | some (byte :: rest) =>
    have nonempty : latin1 (byte :: rest) ≠ [] := cons_ne_nil _ _
    apply Option.ext
    intro checked
    rw [Option.map_some, toOption_eq_some, checkTime_some library nonempty, Option.map_eq_some_iff]
    simp only [toOption_eq_some, nativeCheckTime_some (cons_ne_nil byte rest)]
    constructor
    · rintro ⟨rfl, time, stamp, date, clock⟩
      obtain rfl := latin1_injective date
      have written := latin1_injective stamp
      rw [skewed_iff (apart time (congrArg some written))] at clock
      exact ⟨_, ⟨rfl, time, written, rfl, clock⟩, rfl⟩
    · rintro ⟨_, ⟨rfl, time, stamp, rfl, clock⟩, rfl⟩
      rw [← skewed_iff (apart time (congrArg some stamp))] at clock
      exact ⟨rfl, time, congrArg latin1 stamp, rfl, clock⟩

/-! ## The signed headers -/

theorem lower_latin1 (ascii : IsAscii text) :
    library.lower (latin1 text) = latin1 (lowercase text) := by
  rw [library.lower_ascii]
  · rw [latin1, map_map, lowercase, latin1, map_map]
    exact map_congr_left fun byte member => (ascii_table (ascii byte member)).2.1
  · intro char member
    obtain ⟨byte, inside, rfl⟩ := mem_map.mp member
    rw [byteChar_toNat]
    exact ascii byte inside

theorem lowercase_ascii (ascii : IsAscii text) : IsAscii (lowercase text) := by
  intro byte member
  obtain ⟨source, inside, rfl⟩ := mem_map.mp member
  exact (ascii_table (ascii source inside)).2.2

theorem textLe_latin1 (text other : Bytes) :
    SigV4.textLe (latin1 text) (latin1 other) ↔ stringLe text other := by
  have numbers : ∀ text : Bytes, (latin1 text).map toNat = text.map UInt8.toNat := by
    intro text
    rw [latin1, map_map]
    exact map_congr_left fun byte _ => byteChar_toNat byte
  rw [SigV4.textLe, stringLe, numbers, numbers]

theorem signedNames_latin1 {signedHeaders : Bytes} (ascii : IsAscii signedHeaders) :
    (((signedHeaders.splitOn 59).map latin1).map library.lower).insertionSort SigV4.textLe =
      (signedNames signedHeaders).map latin1 := by
  have lowered : ((signedHeaders.splitOn 59).map latin1).map library.lower =
      ((signedHeaders.splitOn 59).map lowercase).map latin1 := by
    rw [map_map, map_map]
    refine map_congr_left fun name listed => ?_
    exact lower_latin1 library (ascii.of_subset fun _ => mem_of_mem_splitOn listed)
  rw [lowered, signedNames, map_insertionSort stringLe SigV4.textLe]
  intro text _ other _
  exact (textLe_latin1 text other).symm

theorem signedNames_ascii {signedHeaders : Bytes} (ascii : IsAscii signedHeaders) :
    ∀ name ∈ signedNames signedHeaders, IsAscii name := by
  intro name listed
  obtain ⟨source, piece, rfl⟩ := mem_map.mp ((mem_insertionSort _).mp listed)
  exact lowercase_ascii (ascii.of_subset fun _ => mem_of_mem_splitOn piece)

/-- The headers by their names in lower case, as the two verifiers hold them. -/
theorem lowered_latin1 (headers : Headers) :
    (headers.entries.map fun entry => (latin1 entry.1, latin1 entry.2)).map
        (fun header => (library.lower header.1, header.2)) =
      (headers.entries.map fun entry => (lowercase entry.1, entry.2)).map
        fun entry => (latin1 entry.1, latin1 entry.2) := by
  rw [map_map, map_map]
  refine map_congr_left fun entry listed => ?_
  exact Prod.ext (lower_latin1 library (headers.ascii entry listed)) rfl

variable {names : List Bytes}

theorem canonicalHeaders_latin1 {headers : List (Bytes × Bytes)}
    (ascii : ∀ name ∈ names, ∀ value, lastValue name headers = some value → IsAscii value) :
    (SigV4.canonicalHeaders (headers.map fun entry => (latin1 entry.1, latin1 entry.2))
        (names.map latin1)).toOption =
      (canonicalHeaders headers names).toOption.map latin1 := by
  induction names with
  | nil => rfl
  | cons name names ih =>
    have rest := ih fun other listed => ascii other (by simp [listed])
    rw [map_cons, SigV4.canonicalHeaders, canonicalHeaders, lastValue_latin1]
    cases found : lastValue name headers with
    | none => rfl
    | some value =>
      have line := trim_latin1 (ascii name (by simp) value found)
      simp only [Option.map_some, toOption_bind, rest, line]
      cases (canonicalHeaders headers names).toOption with
      | none => rfl
      | some lines =>
        change some _ = some _
        simp [latin1]

theorem joined_ascii {separator : UInt8} {segments : List Bytes} (low : separator.toNat < 0x80)
    (ascii : ∀ segment ∈ segments, IsAscii segment) :
    IsAscii (joined separator segments) := by
  induction segments with
  | nil => exact isAscii_nil
  | cons first rest ih =>
    have later := ih fun segment listed => ascii segment (by simp [listed])
    cases rest with
    | nil => simpa [joined] using ascii first (by simp)
    | cons second rest =>
      rw [joined, intercalate_cons_cons, ← joined]
      simp [isAscii_append_iff, isAscii_cons_iff, ascii first, low, later]

theorem canonicalHeader_ascii (ascii : IsAscii text) :
    IsAscii (canonicalHeader text) := by
  rw [canonicalHeader_eq]
  refine joined_ascii (by decide) fun word listed => ascii.of_subset fun _ => ?_
  exact mem_of_mem_splitOnP (mem_filter.mp listed).1

/-- The lines of headers in ASCII are of ASCII. -/
theorem canonicalHeaders_ascii {headers : List (Bytes × Bytes)} {lines : Bytes}
    (asciiNames : ∀ name ∈ names, IsAscii name)
    (ascii : ∀ name ∈ names, ∀ value, lastValue name headers = some value → IsAscii value)
    (written : canonicalHeaders headers names = .ok lines) : IsAscii lines := by
  induction names generalizing lines with
  | nil =>
    cases written
    exact fun _ member => nomatch member
  | cons name names ih =>
    rw [canonicalHeaders] at written
    cases found : lastValue name headers with
    | none => rw [found] at written; cases written
    | some value =>
      simp only [found] at written
      obtain ⟨rest, later, written⟩ := bind_eq_ok.mp written
      cases written
      have restAscii := ih (fun other listed => asciiNames other (by simp [listed]))
        (fun other listed => ascii other (by simp [listed])) later
      have valueAscii := canonicalHeader_ascii (ascii name (by simp) value found)
      simp [isAscii_append_iff, isAscii_cons_iff, asciiNames name, restAscii, valueAscii]

/-! ## The query -/

theorem splitOn_encode (letter : Char) (low : letter.toNat < 0x80) (text : Text) :
    (encode text).splitOn (UInt8.ofNat letter.toNat) = (text.splitOn letter).map encode := by
  induction text with
  | nil => rfl
  | cons char text ih =>
    rw [splitOn_cons_eq_if_modifyHead]
    by_cases same : char = letter
    · subst same
      rw [encode_letter low, splitOn_cons_eq_if_modifyHead, if_pos (by simp),
        if_pos (by simp), ih]
      rfl
    · have free : UInt8.ofNat letter.toNat ∉ String.utf8EncodeChar char :=
        fun member => same ((byte_mem_encodeChar_iff low char).mp member).symm
      rw [encode_cons, splitOn_append_of_free free, if_neg (by simpa using same),
        ih]
      cases text.splitOn letter <;> rfl

theorem before_encode (letter : Char) (low : letter.toNat < 0x80) (text : Text) :
    before (UInt8.ofNat letter.toNat) (encode text) = encode (before letter text) ∧
      after (UInt8.ofNat letter.toNat) (encode text) = encode (after letter text) := by
  by_cases present : letter ∈ text
  · obtain ⟨first, rest, rfl, free⟩ := eq_append_cons_of_mem present
    have freeBytes : UInt8.ofNat letter.toNat ∉ encode first :=
      fun member => free ((byte_mem_encode_iff low first).mp member)
    rw [encode_append, encode_letter low, before_append_cons freeBytes, after_append_cons freeBytes,
      before_append_cons free, after_append_cons free]
    exact ⟨rfl, rfl⟩
  · have absent : UInt8.ofNat letter.toNat ∉ encode text :=
      fun member => present ((byte_mem_encode_iff low text).mp member)
    rw [before_of_free absent, after_of_free absent, before_of_free present, after_of_free present]
    exact ⟨rfl, rfl⟩

/-- A name or value of the query is decoded and encoded alike. -/
theorem requote_eq (text : Text) :
    SigV4.requote text =
      latin1 (uriEncode false (uriDecode (encode text))) := by
  have kept : ∀ byte, SigV4.unreserved byte = keptByUriEncode false byte := by
    intro byte
    simp [SigV4.unreserved, keptByUriEncode]
  rw [SigV4.requote, SigV4.quote, encode_unquote, uriDecode,
    replaceInvalidUtf8_eq, uriEncode]
  simp only [kept]

/-- The pairs of the query, as the native verifier writes them. -/
def queryPairs (query : Text) : List (Bytes × Bytes) :=
  ((query.splitOn '&').filter fun part => !part.isEmpty).map fun part =>
    (uriEncode false (uriDecode (encode (before '=' part))),
      uriEncode false (uriDecode (encode (after '=' part))))

theorem encode_isEmpty (text : Text) : (encode text).isEmpty = text.isEmpty := by
  cases text with
  | nil => rfl
  | cons char text =>
    have bytes : String.utf8EncodeChar char ≠ [] := by
      by_cases low : char.toNat < 0x80
      · simp [encodeChar_ascii low]
      · obtain ⟨lead, tail, bytes, -⟩ := encodeChar_whole (Nat.le_of_not_lt low)
        simp [bytes]
    cases written : String.utf8EncodeChar char with
    | nil => exact absurd written bytes
    | cons first rest => rw [encode_cons, written]; rfl

theorem nativeQuery_eq (query : Text) :
    canonicalQuery (encode query) =
      joined 38 (((queryPairs query).insertionSort pairLe).map
        fun pair => pair.1 ++ 61 :: pair.2) := by
  have pieces : (encode query).splitOn 38 = (query.splitOn '&').map encode :=
    splitOn_encode '&' (by decide) query
  have first : ∀ part : Text, before 61 (encode part) = encode (before '=' part) :=
    fun part => (before_encode '=' (by decide) part).1
  have second : ∀ part : Text, TextParts.after 61 (encode part) = encode (after '=' part) :=
    fun part => (before_encode '=' (by decide) part).2
  have pairs : (((encode query).splitOn 38).filter fun part => !part.isEmpty).map (fun part =>
      (uriEncode false (uriDecode (before 61 part)),
        uriEncode false (uriDecode (TextParts.after 61 part)))) =
      queryPairs query := by
    rw [pieces, filter_map, map_map, queryPairs]
    simp only [Function.comp_def, encode_isEmpty, first, second]
  rw [canonicalQuery]
  simp only [pairs]
  exact foldl_separated (fun pair : Bytes × Bytes => pair.1 ++ 61 :: pair.2)
    (fun _ => by simp) _

theorem canonicalQuery_eq (query : Text) :
    SigV4.canonicalQuery query = latin1 (canonicalQuery (encode query)) := by
  have pairs : (((query.splitOn '&').filter fun pair => !pair.isEmpty).map fun pair =>
      (SigV4.requote (before '=' pair), SigV4.requote (after '=' pair))) =
      (queryPairs query).map fun pair => (latin1 pair.1, latin1 pair.2) := by
    rw [queryPairs, map_map]
    simp only [Function.comp_def, requote_eq]
  have sorted : ((queryPairs query).map fun pair => (latin1 pair.1, latin1 pair.2)).insertionSort
      SigV4.pairLe = ((queryPairs query).insertionSort pairLe).map
        fun pair => (latin1 pair.1, latin1 pair.2) := by
    refine (map_insertionSort pairLe SigV4.pairLe _ _ ?_).symm
    intro pair _ other _
    simp only [pairLe, SigV4.pairLe, latin1_injective.eq_iff, textLe_latin1]
  have written : ∀ pairs : List (Bytes × Bytes),
      (pairs.map fun pair => (latin1 pair.1, latin1 pair.2)).map (fun pair => pair.1 ++ '=' :: pair.2) =
        (pairs.map fun pair => pair.1 ++ 61 :: pair.2).map latin1 := by
    intro pairs
    rw [map_map, map_map]
    exact map_congr_left fun pair _ => by simp [latin1]
  rw [SigV4.canonicalQuery, nativeQuery_eq]
  simp only [pairs, sorted, written]
  exact joined_map (fun byte : UInt8 => ofNat byte.toNat) 38 _

theorem uriEncode_ascii (text : Bytes) : IsAscii (uriEncode false text) := by
  intro byte member
  obtain ⟨source, -, inside⟩ := mem_flatMap.mp member
  exact of_decide_eq_true (all_eq_true.mp (byte_table source).1 byte inside)

theorem canonicalQuery_ascii (query : Text) :
    IsAscii (canonicalQuery (encode query)) := by
  rw [nativeQuery_eq]
  refine joined_ascii (by decide) fun segment listed => ?_
  obtain ⟨pair, member, rfl⟩ := mem_map.mp listed
  obtain ⟨part, -, rfl⟩ := mem_map.mp ((mem_insertionSort _).mp member)
  exact isAscii_append_iff.mpr ⟨uriEncode_ascii _,
    isAscii_cons_iff.mpr ⟨by decide, uriEncode_ascii _⟩⟩

/-! ## The path -/

/-- The bytes of a path that a client has encoded: those that are never encoded, and the
percent signs of escapes or stray ones. -/
def ClientEncoded (rawPath : Bytes) : Prop :=
  rawPath ≠ [] ∧ ∀ byte ∈ rawPath, SigV4.pathSafe byte = true ∨ byte = percent

theorem pathByte_ascii (kept : SigV4.pathSafe byte = true ∨ byte = percent) :
    byte.toNat < 0x80 :=
  (byte_table byte).2.1 kept

theorem quote_pathByte (kept : SigV4.pathSafe byte = true ∨ byte = percent) :
    SigV4.quote SigV4.pathSafe [ofNat byte.toNat] =
      latin1 (canonicalUriByte byte) := by
  have one : encode [ofNat byte.toNat] = [byte] :=
    encode_latin1 (isAscii_cons_iff.mpr ⟨pathByte_ascii kept, isAscii_nil⟩)
  rw [SigV4.quote, one, flatMap_singleton, canonicalUriByte]
  rcases kept with safe | rfl
  · have other : byte ≠ percent := by
      rintro rfl
      exact absurd safe (by decide)
    rw [if_pos safe, if_neg other]
  · rfl

theorem isHex_byteChar (byte : UInt8) :
    SigV4.isHex (ofNat byte.toNat) = (hexValue byte).isSome :=
  (byte_table byte).2.2.1

/-- Paths that clients have encoded are written alike. -/
theorem canonicalUri_latin1 {path : Bytes}
    (kept : ∀ byte ∈ path, SigV4.pathSafe byte = true ∨ byte = percent) :
    SigV4.canonicalUri (latin1 path) = latin1 (canonicalUriFrom path) := by
  induction path using canonicalUriFrom.induct with
  | case1 => rfl
  | case2 byte => exact quote_pathByte (kept byte (by simp))
  | case3 byte next =>
    change SigV4.quote SigV4.pathSafe [_] ++ SigV4.quote SigV4.pathSafe [_] = _
    rw [quote_pathByte (kept byte (by simp)), quote_pathByte (kept next (by simp)),
      canonicalUriFrom]
    simp [latin1]
  | case4 byte high low rest begins ih =>
    obtain ⟨rfl, highHex, lowHex⟩ := begins
    have later := ih fun byte member => kept byte (by simp [member])
    rw [canonicalUriFrom, if_pos ⟨rfl, highHex, lowHex⟩]
    change (if '%' = '%' && SigV4.isHex (ofNat high.toNat) &&
      SigV4.isHex (ofNat low.toNat) then '%' :: ofNat high.toNat ::
        ofNat low.toNat :: SigV4.canonicalUri (latin1 rest) else _) = _
    rw [isHex_byteChar, isHex_byteChar, highHex, lowHex, later]
    rfl
  | case5 byte high low rest other ih =>
    have later := ih fun byte member => kept byte (by simp [member])
    have kind : ¬ (decide (ofNat byte.toNat = '%') && SigV4.isHex (ofNat high.toNat) &&
        SigV4.isHex (ofNat low.toNat)) = true := by
      rw [isHex_byteChar, isHex_byteChar, Bool.and_eq_true, Bool.and_eq_true, decide_eq_true_eq]
      rintro ⟨⟨sign, highHex⟩, lowHex⟩
      exact other ⟨byteChar_injective sign, highHex, lowHex⟩
    rw [canonicalUriFrom, if_neg other]
    change (if (decide (ofNat byte.toNat = '%') && SigV4.isHex (ofNat high.toNat) &&
      SigV4.isHex (ofNat low.toNat)) = true then _ else
      SigV4.quote SigV4.pathSafe [ofNat byte.toNat] ++
        SigV4.canonicalUri (latin1 (high :: low :: rest))) = _
    rw [if_neg kind, later, quote_pathByte (kept byte (by simp))]
    simp [latin1]

theorem canonicalPath_eq {path : Bytes} (ascii : IsAscii path) :
    SigV4.canonicalPath path = latin1 path := by
  induction path with
  | nil => rfl
  | cons byte path ih =>
    obtain ⟨low, rest⟩ := isAscii_cons_iff.mp ascii
    rw [SigV4.canonicalPath, flatMap_cons, ← SigV4.canonicalPath, ih rest,
      if_pos (UInt8.lt_iff_toNat_lt.mpr low)]
    rfl

theorem canonicalUriByte_ascii (kept : SigV4.pathSafe byte = true ∨ byte = percent) :
    IsAscii (canonicalUriByte byte) := by
  rw [canonicalUriByte]
  split
  · decide
  · exact isAscii_cons_iff.mpr ⟨pathByte_ascii kept, isAscii_nil⟩

theorem canonicalUri_ascii {path : Bytes}
    (kept : ∀ byte ∈ path, SigV4.pathSafe byte = true ∨ byte = percent) :
    IsAscii (canonicalUriFrom path) := by
  induction path using canonicalUriFrom.induct with
  | case1 => exact isAscii_nil
  | case2 byte => exact canonicalUriByte_ascii (kept byte (by simp))
  | case3 byte next =>
    exact isAscii_append_iff.mpr ⟨canonicalUriByte_ascii (kept byte (by simp)),
      canonicalUriByte_ascii (kept next (by simp))⟩
  | case4 byte high low rest begins ih =>
    have later := ih fun byte member => kept byte (by simp [member])
    rw [canonicalUriFrom, if_pos begins]
    simp only [isAscii_cons_iff]
    exact ⟨pathByte_ascii (kept byte (by simp)), pathByte_ascii (kept high (by simp)),
      pathByte_ascii (kept low (by simp)), later⟩
  | case5 byte high low rest other ih =>
    have later := ih fun byte member => kept byte (by simp [member])
    rw [canonicalUriFrom, if_neg other]
    exact isAscii_append_iff.mpr ⟨canonicalUriByte_ascii (kept byte (by simp)), later⟩

/-! ## The request and its signature -/

theorem canonicalRequest_eq {method query : Text} {rawPath lines payloadHash : Bytes}
    (path : ClientEncoded rawPath) (asciiLines : IsAscii lines)
    (asciiNames : ∀ name ∈ names, IsAscii name) (asciiPayload : IsAscii payloadHash) :
    encode (SigV4.canonicalRequest method (SigV4.canonicalPath rawPath) query (latin1 lines)
        (names.map latin1) (latin1 payloadHash)) =
      canonicalRequest (encode method) rawPath (encode query) lines names
        payloadHash := by
  obtain ⟨nonempty, kept⟩ := path
  have newline : ∀ text : Text, encode ('\n' :: text) = 10 :: encode text :=
    encode_letter (by decide)
  have joinedNames : joined ';' (names.map latin1) = latin1 (joined 59 names) :=
    joined_map (fun byte : UInt8 => ofNat byte.toNat) 59 names
  have uri : canonicalUri rawPath = canonicalUriFrom rawPath :=
    if_neg nonempty
  have namesText : IsAscii (joined 59 names) := joined_ascii (by decide) asciiNames
  rw [SigV4.canonicalRequest, canonicalRequest,
    canonicalPath_eq fun byte member => pathByte_ascii (kept byte member),
    canonicalUri_latin1 kept, canonicalQuery_eq, joinedNames, uri]
  simp only [encode_append, newline, encode_latin1 (canonicalUri_ascii kept),
    encode_latin1 (canonicalQuery_ascii query), encode_latin1 asciiLines,
    encode_latin1 namesText, encode_latin1 asciiPayload]

theorem hex_ascii (text : Bytes) : IsAscii (hex text) := by
  intro digit member
  obtain ⟨byte, -, inside⟩ := mem_flatMap.mp member
  exact of_decide_eq_true (all_eq_true.mp (byte_table byte).2.2.2 digit inside)

theorem stamp_ascii (time : DateTime) : IsAscii time.stamp := by
  have digits : ∀ width value, IsAscii (padded width value) := by
    intro width value byte member
    have bounds := isDigit_iff.mp (isDigit_padded member)
    omega
  have low : (84 : UInt8).toNat < 0x80 ∧ (90 : UInt8).toNat < 0x80 := by decide
  simp only [DateTime.stamp, DateTime.dateStamp, isAscii_append_iff, isAscii_cons_iff, digits, low,
    isAscii_nil, and_self]

theorem nativeCheckTime_ascii {date : Option Bytes} {scopeDate checked : Bytes}
    (accepted : checkTime date scopeDate now = .ok checked) : IsAscii checked := by
  match date with
  | none | some [] => cases accepted
  | some (byte :: rest) =>
    obtain ⟨rfl, time, stamp, -⟩ :=
      (nativeCheckTime_some (cons_ne_nil byte rest)).mp accepted
    rw [stamp]
    exact stamp_ascii time

theorem expectedSignature_eq (hash : Hash) (secret : Text) {date : Bytes}
    {scope : Scope} (request : Text) (asciiDate : IsAscii date)
    (asciiScope : IsAscii scope.date ∧ IsAscii scope.region) :
    SigV4.expectedSignature hash secret (latin1 date) (scopeText scope) request =
      latin1 (expectedSignature hash (encode secret) date scope (encode request)) := by
  have written : encode SigV4.algorithm = algorithm := by decide
  have newline : ∀ text : Text, encode ('\n' :: text) = 10 :: encode text :=
    encode_letter (by decide)
  have slash : ∀ text : Text, encode ('/' :: text) = 47 :: encode text :=
    encode_letter (by decide)
  have service : encode "s3".toList = bytes "s3" := by decide
  have terminator : encode "aws4_request".toList = bytes "aws4_request" := by decide
  have version : encode "AWS4".toList = bytes "AWS4" := by decide
  have suffix : bytes "/s3/aws4_request" = 47 :: bytes "s3" ++ 47 :: bytes "aws4_request" := by
    decide
  simp only [SigV4.expectedSignature, expectedSignature, SigV4.hmacText,
    SigV4.deriveSigningKey, SigV4.hexdigest, scopeText, encode_append, newline, slash, written,
    service, terminator, version, encode_latin1 asciiDate, encode_latin1 asciiScope.1,
    encode_latin1 asciiScope.2, encode_latin1 (hex_ascii _), hmacSha256_eq,
    signingKey, sha256Hex, suffix]
  simp

theorem checkSignature_isOk {expected provided : Bytes} (ascii : IsAscii provided) (key : Text)
    (presented : Bytes) :
    (checkSignature expected provided presented).isOk =
      (SigV4.checkSignature (latin1 expected) (latin1 provided) key).isOk := by
  have plain : (latin1 provided).any (fun char => decide (0x80 ≤ char.toNat)) = false := by
    rw [any_eq_false]
    intro char member
    obtain ⟨byte, inside, rfl⟩ := mem_map.mp member
    rw [byteChar_toNat]
    have low := ascii byte inside
    simpa using low
  rw [checkSignature, SigV4.checkSignature, plain]
  by_cases same : expected = provided
  · rw [if_pos (signatureEqual_iff.mpr same), if_neg Bool.false_ne_true,
      if_neg (not_not_intro (congrArg latin1 same))]
    rfl
  · rw [if_neg (fun equal => same (signatureEqual_iff.mp equal)),
      if_neg Bool.false_ne_true, if_pos (latin1_injective.ne same)]
    rfl

/-! ## The verdicts -/

/-- The headers that both verifiers hash: the header of the signature, the hash of the
payload, and the signed headers. -/
def readNames (headers : Headers) : List Bytes :=
  bytes "authorization" :: bytes "x-amz-content-sha256" ::
    match parseAuthorization (headers.find (bytes "authorization")) with
    | .ok authorization => signedNames authorization.signedHeaders
    | .error _ => []

/-- The values of the headers that are read are of ASCII. -/
def ReadAscii (headers : Headers) : Prop :=
  ∀ name ∈ readNames headers, ∀ value, headers.find name = some value → IsAscii value

/-- The header of the signature is read alike, if it is there. -/
theorem authorization_latin1 {headers : Headers} (read : ReadAscii headers) :
    (SigV4.parseAuthorization
        (((headers.find (bytes "authorization")).map latin1).getD [])).toOption =
      (parseAuthorization (headers.find (bytes "authorization"))).toOption.map
        fields := by
  cases found : headers.find (bytes "authorization") with
  | none => rfl
  | some auth => exact parseAuthorization_latin1 (read _ (by simp [readNames]) auth found)

/-- On a path that a client has encoded, with what is read of the headers in ASCII, the two
verifiers give the same verdict. -/
theorem native_accepts_iff_python_accepts (library : SigV4.Library) (hash : Hash)
    (keys : SigV4.Keys) (accessKeyId secret : Text) (request : Request) (now : Int)
    (knows : KnowsOnly keys accessKeyId secret) (path : ClientEncoded request.rawPath)
    (read : ReadAscii request.headers) (clock : ClockApart request.headers now) :
    nativeAccepts hash accessKeyId secret request now = true ↔
      pythonAccepts library hash keys request now = true := by
  suffices same : nativeAccepts hash accessKeyId secret request now =
      pythonAccepts library hash keys request now by rw [same]
  have find : ∀ name, lastValue (latin1 name) ((request.headers.entries.map fun entry =>
      (lowercase entry.1, entry.2)).map fun entry => (latin1 entry.1, latin1 entry.2)) =
      (request.headers.find name).map latin1 := fun name => lastValue_latin1 name _
  have auth : lastValue "authorization".toList (List.map _ _) = _ := find (bytes "authorization")
  have date : lastValue "x-amz-date".toList (List.map _ _) = _ := find (bytes "x-amz-date")
  have payload : lastValue "x-amz-content-sha256".toList (List.map _ _) = _ :=
    find (bytes "x-amz-content-sha256")
  rw [nativeAccepts, pythonAccepts, verify, SigV4.verifySignature]
  simp only [lowered_latin1, auth, date, payload]
  refine isOk_bind_congr (authorization_latin1 read) fun authorization parsed => ?_
  -- The header of the signature is there, since it was read.
  have present : ∃ text, request.headers.find (bytes "authorization") = some text := by
    cases found : request.headers.find (bytes "authorization") with
    | none => rw [Headers.find] at found; rw [found] at parsed; cases parsed
    | some text => exact ⟨text, rfl⟩
  obtain ⟨text, found⟩ := present
  have asciiText : IsAscii text := read _ (by simp [readNames]) text found
  have names : readNames request.headers = bytes "authorization" :: bytes "x-amz-content-sha256" ::
      signedNames authorization.signedHeaders := by
    rw [readNames, Headers.find, parsed]
  rw [Headers.find] at found
  rw [found] at parsed
  obtain ⟨asciiCredential, asciiSigned, asciiSignature⟩ := parseAuthorization_ascii asciiText parsed
  refine isOk_bind_congr (parseScope_latin1 authorization.credential) fun scope taken => ?_
  obtain ⟨asciiKey, asciiDate, asciiRegion⟩ := parseScope_ascii asciiCredential taken
  refine isOk_bind_congr (secretFor_latin1 knows asciiKey) fun _ _ => ?_
  refine isOk_bind_congr (checkTime_latin1 library scope.date clock) fun stamp checked => ?_
  have asciiStamp : IsAscii stamp := nativeCheckTime_ascii checked
  have sorted : (List.map library.lower (fields authorization).signedHeaders).insertionSort
      SigV4.textLe = (signedNames authorization.signedHeaders).map latin1 :=
    signedNames_latin1 library asciiSigned
  have values : ∀ name ∈ signedNames authorization.signedHeaders, ∀ value,
      lastValue name (request.headers.entries.map fun entry =>
        (lowercase entry.1, entry.2)) = some value → IsAscii value :=
    fun name listed value held => read name (by simp [names, listed]) value held
  have asciiNames := signedNames_ascii asciiSigned
  -- There is no body, so its check passes.
  have body : ∀ contentSha256, SigV4.checkBody library hash contentSha256 none = .ok () :=
    fun _ => rfl
  rw [body, sorted]
  change _ = (SigV4.canonicalHeaders _ _ >>= fun lines => _).isOk
  refine isOk_bind_congr (canonicalHeaders_latin1 values) fun lines written => ?_
  have asciiLines := canonicalHeaders_ascii asciiNames values written
  have hashed : ((request.headers.find (bytes "x-amz-content-sha256")).map latin1).getD
      (SigV4.hexdigest hash []) = latin1 (((request.headers.find
        (bytes "x-amz-content-sha256")).getD (sha256Hex hash []))) := by
    cases request.headers.find (bytes "x-amz-content-sha256") with
    | none | some => rfl
  have asciiPayload : IsAscii ((request.headers.find (bytes "x-amz-content-sha256")).getD
      (sha256Hex hash [])) := by
    cases held : request.headers.find (bytes "x-amz-content-sha256") with
    | none => exact hex_ascii _
    | some value => exact read _ (by simp [names]) value held
  rw [hashed, expectedSignature_eq hash secret _ asciiStamp ⟨asciiDate, asciiRegion⟩,
    canonicalRequest_eq path asciiLines asciiNames asciiPayload]
  exact checkSignature_isOk asciiSignature _ _

/-! ## Requests -/

/-- A library that reads only the dates it writes. -/
def plainLibrary : SigV4.Library where
  lower text := text.map Char.toLower
  lower_ascii _ _ := rfl
  strptime text := readStamp (encode text)
  strptime_stamp time := by rw [encode_latin1 (stamp_ascii time), readStamp_stamp]

/-- A checksum in place of the hash. -/
def checksum : Hash where
  digest text := text.foldl (fun sum byte => 31 * sum + byte) 7 :: List.replicate 31 0
  length _ := by simp

/-- A request for a path that is signed by the key `AK`, with a signature. -/
def signedRequest (rawPath host signature : Bytes) : Request where
  method := "GET".toList
  rawPath := rawPath
  query := []
  headers :=
    { entries :=
        [(bytes "Host", host), (bytes "X-Amz-Date", bytes "20261002T000000Z"),
          (bytes "Authorization", bytes ("AWS4-HMAC-SHA256 Credential=AK/20261002/us-east-1/s3/" ++
            "aws4_request, SignedHeaders=host;x-amz-date, Signature=") ++ signature)]
      ascii := by
        have names : ∀ name ∈ [bytes "Host", bytes "X-Amz-Date", bytes "Authorization"],
            IsAscii name := by decide
        exact fun entry listed => names entry.1 (List.mem_map_of_mem listed)
      distinct := by
        simp only [List.map_cons, List.map_nil]
        decide }

/-- The signature that the native verifier expects for it. -/
def nativeSignature (rawPath host : Bytes) : Bytes :=
  expectedSignature checksum (bytes "secret") (bytes "20261002T000000Z")
    ⟨bytes "AK", bytes "20261002", bytes "us-east-1"⟩
    (canonicalRequest (bytes "GET") rawPath []
      (bytes "host:" ++ canonicalHeader host ++
        bytes "\nx-amz-date:20261002T000000Z\n") [bytes "host", bytes "x-amz-date"]
      (sha256Hex checksum []))

/-- The verdicts on a request that carries the native signature, so many microseconds after
its date. -/
def verdicts (rawPath host : Bytes) (later : Int) : Bool × Bool :=
  let request := signedRequest rawPath host (nativeSignature rawPath host)
  let now := 1790899200 * 1000000 + later
  (nativeAccepts checksum "AK".toList "secret".toList request now,
    pythonAccepts plainLibrary checksum (.single "AK".toList "secret".toList) request now)

/-- A path with an escape and the native signature. -/
def encodedSpace : Request :=
  signedRequest (bytes "/b/a%20b") (bytes "s3.local")
    (nativeSignature (bytes "/b/a%20b") (bytes "s3.local"))

/-- It gets the same verdict from both. -/
theorem encoded_space_accepted_by_both :
    nativeAccepts checksum "AK".toList "secret".toList encodedSpace 1790899200000000 = true ∧
      pythonAccepts plainLibrary checksum (.single "AK".toList "secret".toList) encodedSpace
        1790899200000000 = true := by
  obtain ⟨accepted, encoded, values, found, seconds⟩ :
      nativeAccepts checksum "AK".toList "secret".toList encodedSpace 1790899200000000 = true ∧
        (encodedSpace.rawPath ≠ [] ∧
          (encodedSpace.rawPath.all fun byte => SigV4.pathSafe byte = true ∨ byte = percent) = true) ∧
        (encodedSpace.headers.entries.all fun entry => entry.2.all (·.toNat < 0x80)) = true ∧
        encodedSpace.headers.find (bytes "x-amz-date") = some (bytes "20261002T000000Z") ∧
        (readStamp (bytes "20261002T000000Z")).map DateTime.seconds = some 1790899200 := by
    decide +kernel
  refine ⟨accepted, (native_accepts_iff_python_accepts plainLibrary checksum
    (.single "AK".toList "secret".toList) "AK".toList "secret".toList encodedSpace
    1790899200000000 ?_ ?_ ?_ ?_).mp accepted⟩
  · intro presented
    rw [SigV4.Keys.secretFor]
    by_cases same : presented = "AK".toList
    · rw [if_neg (not_not_intro same), if_pos same]
      rfl
    · rw [if_pos same, if_neg same]
      rfl
  · exact ⟨encoded.1, fun byte inside =>
      of_decide_eq_true (all_eq_true.mp encoded.2 byte inside)⟩
  · intro name _ value held
    obtain ⟨entry, listed, assigned⟩ := mem_map.mp (mem_of_lastValue held)
    rw [← (Prod.mk.inj assigned).2]
    intro byte inside
    exact of_decide_eq_true
      (all_eq_true.mp (all_eq_true.mp values entry listed) byte inside)
  · intro time held
    have stamp := Option.some.inj (found.symm.trans held)
    rw [stamp, readStamp_stamp, Option.map_some, Option.some.injEq] at seconds
    omega

/-- With the native signature, only the native verifier accepts a path with a parenthesis,
an empty path, a header value that is not of ASCII, and half a second too late. -/
theorem native_accepts_where_python_refuses :
    verdicts (bytes "/b/a(b") (bytes "s3.local") 0 = (true, false) ∧
      verdicts [] (bytes "s3.local") 0 = (true, false) ∧
      verdicts (bytes "/b/a") (0xE9 :: bytes ".local") 0 = (true, false) ∧
      verdicts (bytes "/b/a") (bytes "s3.local") 900500000 = (true, false) := by
  decide +kernel

end ShortcutProxy.SigV4Agreement
