import ShortcutProxy.NativeAgent
import ShortcutProxy.TextParts

/-!
# The scope of signed requests to the native agent

Object requests are judged by their key before the key is cleaned up, listings by
their prefix before it is compared with the index. An object that is served lies
within the allowed prefixes. The keys of a listing start with its prefix, so they lie
within the allowed prefixes if that prefix lies below one of them. If it is only equal
to one, there is an index from which the listing shows a key outside: the prefix
`tenant-a` brings up `tenant-ab/secret`.
-/

namespace ShortcutProxy.NativeAgent

open PercentEncoding List Request

/-! ## Names within the allowed prefixes -/

/-- The name is an allowed prefix or lies below one. Without configured prefixes the
whole bucket is allowed. -/
def Within (allowedPrefixes : List Bytes) (name : Bytes) : Prop :=
  allowedPrefixes = [] ∨
    ∃ allowed ∈ allowedPrefixes, name = allowed ∨ allowed ++ [slash] <+: name

/-- The object keys and common prefixes that a response shows. -/
def Response.names : Response → List Bytes
  | .listing false shown => shown.page.map (·.value) ++ shown.nextContinuationToken.toList
  | .object key .. => [key]
  | .listing true _ | .fixed .. | .error .. => []

/-- Everything that a response shows lies within the allowed prefixes. -/
def Confined (config : Config) (response : Response) : Prop :=
  ∀ name ∈ response.names, Within (configuredPrefixes config.s3AllowedPrefixes) name

/-- What a request asks for: one object, or the listing of a prefix. -/
inductive Asked where
  | object (key : Bytes)
  | listing (keyPrefix : Bytes)
  deriving DecidableEq, Repr

def Request.asked (request : Request) : Asked :=
  if request.bucketKey.2 = [] then .listing (queryParam request.query (bytes "prefix"))
  else .object request.bucketKey.2

theorem prefixIsAllowed_iff {candidate : Bytes} {allowedPrefixes : List Bytes} :
    prefixIsAllowed candidate allowedPrefixes = true ↔ Within allowedPrefixes candidate := by
  have below : ∀ allowed : Bytes,
      (allowed.length < candidate.length ∧ allowed <+: candidate) ∧
        candidate[allowed.length]? = some slash ↔ allowed ++ [slash] <+: candidate := by
    intro allowed
    constructor
    · rintro ⟨⟨-, tail, rfl⟩, separated⟩
      rw [getElem?_append_right (Nat.le_refl _), Nat.sub_self] at separated
      obtain ⟨rest, rfl⟩ : ∃ rest, tail = slash :: rest := by
        cases tail with
        | nil => cases separated
        | cons first rest => exact ⟨rest, by simpa using separated⟩
      exact ⟨rest, by simp⟩
    · rintro ⟨rest, rfl⟩
      simp
  simp [prefixIsAllowed, Within, ← below, isPrefixOf_iff_prefix]

/-! ## Objects -/

/-- What `configured_prefixes` ensures of each prefix. -/
structure Plain (allowed : Bytes) : Prop where
  noBackslash : backslash ∉ allowed
  noSlashAtEnd : ∀ nonempty : allowed ≠ [], allowed.getLast nonempty ≠ slash

theorem backslash_not_mem_withSlashes (text : Bytes) : backslash ∉ withSlashes text := by
  intro member
  obtain ⟨byte, -, same⟩ := mem_map.mp member
  split at same
  · exact absurd same (by decide)
  next other => exact other same

theorem withSlashes_eq_self {text : Bytes} (free : backslash ∉ text) : withSlashes text = text := by
  conv_rhs => rw [← map_id text]
  refine map_congr_left fun byte member => ?_
  have other : byte ≠ backslash := fun same => free (same ▸ member)
  rw [if_neg other, id_eq]

theorem plain_of_configured {text allowed : Bytes} (listed : allowed ∈ configuredPrefixes text) :
    Plain allowed := by
  obtain ⟨piece, -, rfl⟩ := mem_map.mp (mem_filter.mp listed).1
  constructor
  · intro member
    have inside := (dropWhile_subset _) ((List.rdropWhile_prefix _ _).subset member)
    exact backslash_not_mem_withSlashes _ inside
  · intro nonempty same
    exact rdropWhile_last_not _ _ nonempty (by simpa [trimSlashes] using same)

/-- The file of a key within the allowed prefixes lies within them. -/
theorem within_of_resolveKeyPath {text rawKey key : Bytes}
    (within : Within (configuredPrefixes text) rawKey)
    (resolved : resolveKeyPath rawKey = some key) :
    Within (configuredPrefixes text) key := by
  rcases within with unrestricted | ⟨allowed, listed, within⟩
  · exact .inl unrestricted
  refine .inr ⟨allowed, listed, ?_⟩
  have plain := plain_of_configured listed
  have nonempty : allowed ≠ [] := by simpa using (mem_filter.mp listed).2
  obtain ⟨tail, rfl, ends⟩ : ∃ tail, rawKey = allowed ++ tail ∧
      (tail = [] ∨ ∃ rest, tail = slash :: rest) := by
    rcases within with rfl | ⟨rest, rfl⟩
    · exact ⟨[], by simp, .inl rfl⟩
    · exact ⟨slash :: rest, by simp, .inr ⟨rest, rfl⟩⟩
  have cleaned : key = trimSlashes (withSlashes (allowed ++ tail)) ∧
      (allowed ++ tail).head? ≠ some slash := by
    unfold resolveKeyPath at resolved
    split at resolved; · cases resolved
    split at resolved; · cases resolved
    next unrooted =>
      dsimp only at resolved
      split at resolved; · cases resolved
      split at resolved; · cases resolved
      cases resolved
      exact ⟨rfl, fun rooted => unrooted (.inl rooted)⟩
  have kept : key = allowed ++ (withSlashes tail).rdropWhile (· = slash) := by
    rw [cleaned.1, withSlashes, map_append, ← withSlashes, ← withSlashes,
      withSlashes_eq_self plain.noBackslash, trimSlashes,
      ← Segments.rdropWhile_append_of_last fun nonempty => by
        simpa using plain.noSlashAtEnd nonempty]
    cases allowed with
    | nil => exact absurd rfl nonempty
    | cons first rest =>
      have unrooted : first ≠ slash := fun same => cleaned.2 (by simp [same])
      rw [cons_append, dropWhile_cons_of_neg (by simpa using unrooted)]
  rcases ends with rfl | ⟨rest, rfl⟩
  · exact .inl (by rw [kept]; simp [withSlashes])
  · obtain ⟨cut, split⟩ := rdropWhile_prefix (· = slash) (withSlashes (slash :: rest))
    cases left : (withSlashes (slash :: rest)).rdropWhile (· = slash) with
    | nil => exact .inl (by rw [kept, left, append_nil])
    | cons first more =>
      rw [left, withSlashes, map_cons, cons_append, List.cons.injEq] at split
      refine .inr ⟨more, ?_⟩
      rw [kept, left, split.1, if_neg (by decide), append_assoc, singleton_append]

/-! ## Listings -/

variable {keyPrefix delimiter : Bytes} {state : State} {request : Request} {config : Config}

theorem itemOf_starts {entry : IndexedObject} (starts : keyPrefix <+: entry.key) :
    keyPrefix <+: (itemOf keyPrefix delimiter entry).value := by
  unfold itemOf
  split
  · exact starts
  · dsimp only
    split
    · exact starts
    · exact prefix_append _ _

/-- The items of a page start with the prefix of the listing. -/
theorem scan_starts {pageSize : Nat} (entries : List IndexedObject) {page : List ListItem}
    (starts : ∀ item ∈ page, keyPrefix <+: item.value) :
    ∀ item ∈ (scan keyPrefix delimiter pageSize entries page).1, keyPrefix <+: item.value := by
  induction entries generalizing page with
  | nil => exact starts
  | cons entry rest ih =>
    unfold scan
    split
    next goes =>
      have added : ∀ item ∈ page ++ [itemOf keyPrefix delimiter entry],
          keyPrefix <+: item.value := by
        intro item member
        rcases mem_append.mp member with before | new
        · exact starts item before
        · rw [mem_singleton.mp new]
          exact itemOf_starts (List.isPrefixOf_iff_prefix.mp goes.2)
      dsimp only
      split
      · exact ih added
      · apply ih
        split
        · exact starts
        · exact added
    next => exact starts

theorem handleList_starts {index : List IndexedObject} {token : Bytes} {maxKeys : Nat} :
    ∀ item ∈ (handleList index keyPrefix maxKeys token delimiter).page,
      keyPrefix <+: item.value :=
  scan_starts _ (by simp)

/-- The token of the next page is an item of this one. -/
theorem mem_page_of_next {index : List IndexedObject} {token next : Bytes} {maxKeys : Nat}
    (continued :
      (handleList index keyPrefix maxKeys token delimiter).nextContinuationToken = some next) :
    ∃ item ∈ (handleList index keyPrefix maxKeys token delimiter).page, item.value = next := by
  have chosen : (handleList index keyPrefix maxKeys token delimiter).nextContinuationToken =
      if (handleList index keyPrefix maxKeys token delimiter).truncated then
        (handleList index keyPrefix maxKeys token delimiter).page.getLast?.map (·.value)
      else none := rfl
  rw [chosen] at continued
  split at continued
  · obtain ⟨item, last, same⟩ := Option.map_eq_some_iff.mp continued
    exact ⟨item, mem_of_getLast? last, same⟩
  · cases continued

/-- Everything that an admitted listing shows starts with its prefix. -/
theorem answerListing_starts {name : Bytes} (shown : name ∈ (answerListing state request).names) :
    queryParam request.query (bytes "prefix") <+: name := by
  unfold answerListing at shown
  dsimp only at shown
  split at shown
  · cases shown
  split at shown
  · cases shown
  cases headOnly : decide (request.method = .head) with
  | true => rw [headOnly] at shown; cases shown
  | false =>
    rw [headOnly] at shown
    rcases mem_append.mp shown with onPage | token
    · obtain ⟨item, member, rfl⟩ := mem_map.mp onPage
      exact handleList_starts item member
    · obtain ⟨item, member, rfl⟩ := mem_page_of_next (Option.mem_toList.mp token)
      exact handleList_starts item member

/-! ## Connections -/

theorem answerEarly_names {response : Response}
    (early : answerEarly state request = some response) : response.names = [] := by
  unfold answerEarly at early
  split at early; · cases early; rfl
  split at early; · cases early; rfl
  split at early; · cases early; rfl
  split at early; · cases early; rfl
  split at early
  · cases early; rfl
  · cases early

theorem authRefusal_names {response : Response}
    (refused : authRefusal config request = some response) : response.names = [] := by
  unfold authRefusal at refused
  split at refused; · cases refused
  split at refused; · cases refused; rfl
  split at refused
  · cases refused; rfl
  · cases refused

/-- A response that shows anything answers an admitted request to the bucket. -/
theorem handleConnection_cases (config : Config) (state : State) (request : Request) :
    (handleConnection config state request).names = [] ∨
      (request.bucketKey.1 = config.bucket ∧ authRefusal config request = none ∧
        handleConnection config state request =
          if request.bucketKey.2 = [] then answerListing state request
          else handleGet config state request.bucketKey.2 request.range
            (request.method = .head)) := by
  unfold handleConnection
  split
  next response early => exact .inl (answerEarly_names early)
  split
  next response refused => exact .inl (authRefusal_names refused)
  next admitted =>
    split
    · exact .inl rfl
    split
    · exact .inl rfl
    next same => exact .inr ⟨not_not.mp same, admitted, rfl⟩

theorem handleGet_names {rawKey range name : Bytes} {headOnly : Bool}
    (shown : name ∈ (handleGet config state rawKey range headOnly).names) :
    resolveKeyPath rawKey = some name := by
  unfold handleGet at shown
  split at shown
  · cases shown
  next key resolved =>
    split at shown
    · cases shown
    · dsimp only at shown
      split at shown
      · cases shown
      · cases shown
      all_goals
        rw [mem_singleton.mp shown]
        exact resolved

section

variable (mode : config.s3AuthMode = .sigv4)
include mode

/-- What an admitted request asks for is allowed. -/
theorem within_of_admitted
    (addressed : request.bucketKey.1 = config.bucket)
    (admitted : authRefusal config request = none) :
    Within (configuredPrefixes config.s3AllowedPrefixes) request.requested := by
  unfold authRefusal at admitted
  rw [mode] at admitted
  dsimp only at admitted
  split at admitted
  · cases admitted
  split at admitted
  · cases admitted
  next allowed =>
    apply prefixIsAllowed_iff.mp
    cases verdict : prefixIsAllowed request.requested
        (configuredPrefixes config.s3AllowedPrefixes) with
    | true => rfl
    | false => exact absurd ⟨addressed, verdict⟩ allowed

/-- A response that shows anything answers what is allowed. -/
theorem asked_of_shown {name : Bytes}
    (shown : name ∈ (handleConnection config state request).names) :
    Within (configuredPrefixes config.s3AllowedPrefixes) request.requested ∧
      name ∈ (if request.bucketKey.2 = [] then answerListing state request
        else handleGet config state request.bucketKey.2 request.range
          (request.method = .head)).names := by
  rcases handleConnection_cases config state request with none | ⟨addressed, admitted, answer⟩
  · rw [none] at shown; cases shown
  · rw [answer] at shown
    exact ⟨within_of_admitted mode addressed admitted, shown⟩

/-- Objects are served within the allowed prefixes only. -/
theorem confined_of_object (named : request.bucketKey.2 ≠ []) :
    Confined config (handleConnection config state request) := by
  intro name shown
  obtain ⟨asked, answer⟩ := asked_of_shown mode shown
  rw [if_neg named] at answer
  rw [requested, if_neg named] at asked
  exact within_of_resolveKeyPath asked (handleGet_names answer)

/-- So are listings whose prefix, if it is allowed at all, lies below an allowed one. -/
theorem confined_of_listing (whole : request.bucketKey.2 = [])
    (below : Within (configuredPrefixes config.s3AllowedPrefixes)
        (queryParam request.query (bytes "prefix")) →
      configuredPrefixes config.s3AllowedPrefixes = [] ∨
        ∃ allowed ∈ configuredPrefixes config.s3AllowedPrefixes,
          allowed ++ [slash] <+: queryParam request.query (bytes "prefix")) :
    Confined config (handleConnection config state request) := by
  intro name shown
  obtain ⟨asked, answer⟩ := asked_of_shown mode shown
  rw [if_pos whole] at answer
  rw [requested, if_pos whole] at asked
  rcases below asked with unrestricted | ⟨allowed, listed, inside⟩
  · exact .inl unrestricted
  · exact .inr ⟨allowed, listed, .inr (inside.trans (answerListing_starts answer))⟩

end

/-! ## A listing that shows a key outside -/

/-- A request for the listing of a prefix, with bucket and prefix fully encoded. -/
def listingRequest (bucket keyPrefix : Bytes) : Request where
  method := .get
  target := (slash :: (percentEncode bucket ++ [slash])) ++
    63 :: (bytes "prefix=" ++ percentEncode keyPrefix)

/-- An index with one object. -/
def oneObject (key : Bytes) (size : Nat) : State where
  index := [⟨key, size⟩]
  sorted := List.pairwise_singleton _ _
  files := fun _ => none

section ListingRequest

variable (bucket keyPrefix : Bytes)

theorem question_not_mem : 63 ∉ slash :: (percentEncode bucket ++ [slash]) := by
  intro member
  simp only [mem_cons, mem_append, not_mem_nil, or_false] at member
  rcases member with slashed | encoded | slashed
  · exact absurd slashed (by decide)
  · exact not_mem_percentEncode (by decide) (by decide) _ encoded
  · exact absurd slashed (by decide)

theorem listingRequest_encodedPath :
    (listingRequest bucket keyPrefix).encodedPath = slash :: (percentEncode bucket ++ [slash]) :=
  TextParts.before_append_cons (question_not_mem bucket) _

theorem listingRequest_query :
    (listingRequest bucket keyPrefix).query = bytes "prefix=" ++ percentEncode keyPrefix :=
  TextParts.after_append_cons (question_not_mem bucket) _

theorem listingRequest_path :
    (listingRequest bucket keyPrefix).path = slash :: (bucket ++ [slash]) := by
  rw [path, listingRequest_encodedPath, urlDecode,
    percentDecode_cons_of_ne (by decide), percentDecode_encode_append]
  have kept : (if slash = 43 then (32 : UInt8) else slash) = slash := by decide
  simp only [percentDecode, kept]

theorem listingRequest_bucketKey (plain : slash ∉ bucket) :
    (listingRequest bucket keyPrefix).bucketKey = (bucket, []) := by
  simp only [bucketKey, listingRequest_path, head?_cons, if_true, drop_succ_cons,
    drop_zero]
  exact Prod.ext (TextParts.before_append_cons plain []) (TextParts.after_append_cons plain [])

theorem listingRequest_splitOn :
    (listingRequest bucket keyPrefix).query.splitOn 38 =
      [bytes "prefix=" ++ percentEncode keyPrefix] := by
  rw [listingRequest_query]
  apply splitOn_eq_singleton
  intro member
  rcases mem_append.mp member with name | value
  · exact absurd name (by decide)
  · exact not_mem_percentEncode (by decide) (by decide) _ value

theorem listingRequest_queryParam :
    queryParam (listingRequest bucket keyPrefix).query (bytes "prefix") = keyPrefix := by
  rw [queryParam, listingRequest_splitOn]
  have decoded : urlDecode (percentEncode keyPrefix) = keyPrefix := by
    have whole := @percentDecode_encode_append (fun byte => if byte = 43 then 32 else byte)
      keyPrefix []
    simpa [urlDecode, percentDecode] using whole
  exact decoded

theorem listingRequest_unmarked : 35 ∉ (listingRequest bucket keyPrefix).target := by
  have coded : ∀ text : Bytes, 35 ∉ percentEncode text :=
    not_mem_percentEncode (by decide) (by decide)
  have written : (35 : UInt8) ∉ bytes "prefix=" ∧ (35 : UInt8) ≠ slash ∧ (35 : UInt8) ≠ 63 := by
    decide
  simp [listingRequest, coded, written]

theorem listingRequest_answerEarly (state : State) :
    answerEarly state (listingRequest bucket keyPrefix) = none := by
  have ended : ∀ text : Bytes, text.getLast? ≠ some slash →
      (listingRequest bucket keyPrefix).path ≠ text := by
    rintro text differs rfl
    rw [listingRequest_path, ← cons_append, getLast?_concat] at differs
    exact differs rfl
  have encoded : wellEncoded (listingRequest bucket keyPrefix).encodedPath = true := by
    rw [listingRequest_encodedPath, wellEncoded_cons_of_ne (by decide), wellEncoded_encode_append]
    decide
  unfold answerEarly
  rw [if_neg, if_neg, if_neg, if_neg, if_neg]
  · exact ended _ (by decide)
  · exact ended _ (by decide)
  · exact ended _ (by decide)
  · simp [listingRequest]
  · rw [encoded, contains_iff_mem, listingRequest_encodedPath]
    simp [listingRequest_unmarked]

theorem listingRequest_admitted (plain : slash ∉ config.bucket)
    (allowed : Within (configuredPrefixes config.s3AllowedPrefixes) keyPrefix) :
    authRefusal config (listingRequest config.bucket keyPrefix) = none := by
  have asked : (listingRequest config.bucket keyPrefix).requested = keyPrefix := by
    rw [requested, listingRequest_bucketKey _ _ plain, if_pos rfl,
      listingRequest_queryParam]
  have unrejected : (listingRequest config.bucket keyPrefix).rejection = none := rfl
  unfold authRefusal
  rw [unrejected, asked, prefixIsAllowed_iff.mpr allowed]
  cases config.s3AuthMode <;> simp

/-- Without further parameters the listing is one page of up to a thousand items. -/
theorem listingRequest_answerListing (state : State) :
    answerListing state (listingRequest bucket keyPrefix) =
      .listing false (handleList state.index keyPrefix 1000 [] []) := by
  have absent : queryParam (listingRequest bucket keyPrefix).query (bytes "continuation-token") = [] ∧
      queryParam (listingRequest bucket keyPrefix).query (bytes "delimiter") = [] ∧
      queryHasParam (listingRequest bucket keyPrefix).query (bytes "max-keys") = false := by
    simp only [queryParam, queryHasParam, listingRequest_splitOn]
    exact ⟨rfl, rfl, rfl⟩
  have getting : (listingRequest bucket keyPrefix).method = .get := rfl
  simp [answerListing, absent, listingRequest_queryParam, getting]

/-- The listing of a prefix shows the object that starts with it. -/
theorem listingRequest_shows {key : Bytes} (size : Nat) (plain : slash ∉ config.bucket)
    (allowed : Within (configuredPrefixes config.s3AllowedPrefixes) keyPrefix)
    (starts : keyPrefix <+: key) :
    key ∈ (handleConnection config (oneObject key size)
      (listingRequest config.bucket keyPrefix)).names := by
  have getting : (listingRequest config.bucket keyPrefix).method ≠ .other := by
    simp [listingRequest]
  have page : (handleList [⟨key, size⟩] keyPrefix 1000 [] []).page = [.contents key size] := by
    have reached : lowerBound [⟨key, size⟩] keyPrefix = 0 := by
      simp [lowerBound, starts.le]
    have matching := isPrefixOf_iff_prefix.mpr starts
    simp [handleList, reached, scan, matching, itemOf]
  unfold handleConnection
  rw [listingRequest_answerEarly, listingRequest_admitted keyPrefix plain allowed]
  dsimp only
  rw [listingRequest_bucketKey _ _ plain, if_neg getting, if_neg (not_not.mpr rfl), if_pos rfl,
    listingRequest_answerListing]
  simp [Response.names, oneObject, page, ListItem.value]

theorem listingRequest_asked (plain : slash ∉ bucket) :
    (listingRequest bucket keyPrefix).asked = .listing keyPrefix := by
  rw [asked, listingRequest_bucketKey _ _ plain, if_pos rfl, listingRequest_queryParam]

end ListingRequest

/-- A text that lies below no allowed prefix starts a key that is not allowed. -/
theorem exists_outside {allowedPrefixes : List Bytes} (restricted : allowedPrefixes ≠ [])
    (apart : ∀ allowed ∈ allowedPrefixes, ¬ allowed ++ [slash] <+: keyPrefix) :
    ∃ key, keyPrefix <+: key ∧ ¬ Within allowedPrefixes key := by
  -- More letters than any prefix has.
  let letters : Bytes := .replicate (allowedPrefixes.flatten.length + 1) 97
  refine ⟨keyPrefix ++ letters, prefix_append _ _, ?_⟩
  rintro (unrestricted | ⟨allowed, listed, same | below⟩)
  · exact restricted unrestricted
  · have bounded : allowed.length ≤ allowedPrefixes.flatten.length :=
      (sublist_flatten_of_mem listed).length_le
    rw [← same, length_append, length_replicate] at bounded
    omega
  · have free : slash ∉ letters := fun member =>
      absurd (eq_of_mem_replicate member) (by decide)
    exact apart allowed listed (Segments.append_isPrefix_of_append free below)

/-! ## The guarantee -/

/-- No bucket with a slash in its name is ever addressed. -/
theorem slash_not_mem_bucket (request : Request) : slash ∉ request.bucketKey.1 := by
  intro member
  simpa using mem_takeWhile_imp member

/-- For every configuration of allowed prefixes in `sigv4` mode and everything that can
be asked for: all signed requests for it, in every state of the agent, show only keys
within the allowed prefixes exactly when it is an object, or the listing of a prefix
that, if it is itself an allowed prefix, lies below another one. A bucket name with a
slash in it is never served at all. -/
theorem shown_keys_confined_iff (config : Config) (mode : config.s3AuthMode = .sigv4)
    (asked : Asked) :
    (∀ (state : State) (request : Request), request.rejection = none → request.asked = asked →
      Confined config (handleConnection config state request)) ↔
    match asked with
    | .object _ => True
    | .listing keyPrefix => slash ∈ config.bucket ∨
        (keyPrefix ∈ configuredPrefixes config.s3AllowedPrefixes →
          ∃ allowed ∈ configuredPrefixes config.s3AllowedPrefixes,
            allowed ++ [slash] <+: keyPrefix) := by
  cases asked with
  | object key =>
    refine ⟨fun _ => trivial, fun _ state request _ same => confined_of_object mode ?_⟩
    intro whole
    rw [asked, if_pos whole] at same
    cases same
  | listing keyPrefix =>
    constructor
    · intro confined
      by_contra outside
      push Not at outside
      obtain ⟨plain, listed, apart⟩ := outside
      obtain ⟨key, starts, unallowed⟩ := exists_outside (ne_nil_of_mem listed) apart
      have allowed : Within (configuredPrefixes config.s3AllowedPrefixes) keyPrefix :=
        .inr ⟨keyPrefix, listed, .inl rfl⟩
      exact unallowed (confined (oneObject key 0) (listingRequest config.bucket keyPrefix) rfl
        (listingRequest_asked _ _ plain) key
        (listingRequest_shows keyPrefix 0 plain allowed starts))
    · rintro condition state request _ same
      by_cases whole : request.bucketKey.2 = []
      · rw [asked, if_pos whole, Asked.listing.injEq] at same
        rcases condition with slashed | condition
        · intro name shown
          rcases handleConnection_cases config state request with none | ⟨addressed, -⟩
          · rw [none] at shown; cases shown
          · exact absurd (addressed ▸ slashed) (slash_not_mem_bucket request)
        · apply confined_of_listing mode whole
          rw [same]
          rintro (unrestricted | ⟨allowed, listed, rfl | below⟩)
          · exact .inl unrestricted
          · exact .inr (condition listed)
          · exact .inr ⟨allowed, listed, below⟩
      · rw [asked, if_neg whole] at same
        cases same

/-- An agent whose key may read below `tenant-a`. -/
def tenantConfig : Config where
  bucket := bytes "lake"
  s3AuthMode := .sigv4
  s3AllowedPrefixes := bytes "/tenant-a/"

/-- Listings of `tenant-a/` show nothing of other tenants. -/
theorem listing_below_tenant_confined :
    tenantConfig.s3AuthMode = .sigv4 ∧ ∀ (state : State) (request : Request),
      request.rejection = none → request.asked = .listing (bytes "tenant-a/") →
        Confined tenantConfig (handleConnection tenantConfig state request) :=
  ⟨rfl, (shown_keys_confined_iff tenantConfig rfl (.listing (bytes "tenant-a/"))).mpr
    (.inr fun _ => ⟨bytes "tenant-a", by decide +kernel, ⟨[], by decide +kernel⟩⟩)⟩

/-- A signed listing of `tenant-a` shows an object of the tenant `tenant-ab`. -/
theorem listing_shows_other_tenant :
    ¬ Confined tenantConfig (handleConnection tenantConfig
      (oneObject (bytes "tenant-ab/secret") 7)
      { method := .get, target := bytes "/lake?list-type=2&prefix=tenant-a" }) := by
  intro confined
  have shown : bytes "tenant-ab/secret" ∈ (handleConnection tenantConfig
      (oneObject (bytes "tenant-ab/secret") 7)
      { method := .get, target := bytes "/lake?list-type=2&prefix=tenant-a" }).names := by
    decide +kernel
  have within := prefixIsAllowed_iff.mpr (confined _ shown)
  exact absurd within (by decide +kernel)

end ShortcutProxy.NativeAgent
