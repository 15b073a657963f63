import ShortcutProxy.Fallible
import ShortcutProxy.Mounts
import ShortcutProxy.PercentEncoding

/-!
# Locations in Iceberg metadata

The metadata of a table names its files by location: a URI, or a path relative to the
table. On a remote mount `_remote_object_key` turns a location into a key of the
mounted bucket or container, or refuses it. It checks the authority of the URI against
the mount, decodes the path once for the key and three times more for the check that
no segment is `.` or `..`, and compares the key with the prefix of the mount.

A returned key lies at or below the prefix, and no decoding up to the third brings up
a dot segment, because escapes never span a slash: the names in a decoded text are
those in the decoded segments, and dropping empty segments loses no other.

The prefix is compared without its empty segments. A mount of `a//b/` therefore reads
keys below `a/b`.

What the library does with letter case, with bytes that are not ASCII and with odd
authorities are parameters.
-/

namespace ShortcutProxy.IcebergLocations

open Fallible Segments Mounts PercentEncoding

abbrev Text := List Char

/-- The parts of the standard library that are left open. -/
structure Library where
  /-- How `unquote` decodes bytes. -/
  utf8 : Utf8
  /-- `str.lower`. -/
  lower : Text → Text
  /-- The authorities for which `urlsplit` raises. -/
  refusesNetloc : Text → Bool

/-! ## Splitting a URL -/

/-- `SplitResult`. -/
structure SplitResult where
  scheme : Text := []
  netloc : Text := []
  path : Text := []
  query : Text := []
  fragment : Text := []
  deriving DecidableEq, Repr

/-- `scheme_chars`. -/
def schemeChar (char : Char) : Bool := char.isAlphanum || char = '+' || char = '-' || char = '.'

/-- The scheme of a URL, in lower case, and the rest. -/
def splitScheme (url : Text) : Text × Text :=
  let scheme := url.takeWhile (· ≠ ':')
  if url.contains ':' && scheme.head?.any Char.isAlpha && scheme.all schemeChar then
    (scheme.map .toLower, (url.dropWhile (· ≠ ':')).drop 1)
  else ([], url)

/-- The authority of a URL without its scheme, and the rest. -/
def splitNetloc (url : Text) : Text × Text :=
  match url with
  | '/' :: '/' :: rest =>
    (rest.takeWhile fun char => char ∉ ['/', '?', '#'],
      rest.dropWhile fun char => char ∉ ['/', '?', '#'])
  | _ => ([], url)

/-- A text up to a mark, and what comes after it. -/
def splitMark (mark : Char) (text : Text) : Text × Text :=
  (text.takeWhile (· ≠ mark), (text.dropWhile (· ≠ mark)).drop 1)

variable (library : Library) (mount : Mount)

/-- `urlsplit`. -/
def urlsplit (url : Text) : Except String SplitResult :=
  let cleaned := (url.dropWhile fun char => char ≤ ' ').filter fun char =>
    char ≠ '\t' && char ≠ '\r' && char ≠ '\n'
  let (scheme, rest) := splitScheme cleaned
  let (netloc, rest) := splitNetloc rest
  let (rest, fragment) := splitMark '#' rest
  let (path, query) := splitMark '?' rest
  if library.refusesNetloc netloc then .error "Invalid IPv6 URL"
  else .ok { scheme, netloc, path, query, fragment }

/-- A user name or a password stands before the last `@` of the authority. -/
def hasCredentials (netloc : Text) : Bool :=
  let info := (netloc.rdropWhile (· ≠ '@')).dropLast
  (splitMark ':' info).1 ≠ [] || (splitMark ':' info).2 ≠ []

/-! ## Paths -/

/-- A segment that names a folder relative to another. -/
def isDots (segment : Text) : Bool := segment = ['.'] || segment = ['.', '.']

/-- The text decoded some times over. -/
def decoded (library : Library) : Nat → Text → Text
  | 0, text => text
  | times + 1, text => decoded library times (library.utf8.unquote text)

/-- A text that a path may not decode to. -/
def hasTraversal (text : Text) : Bool :=
  text.contains '\\' || text.contains (.ofNat 0) || (text.splitOn '/').any isDots

/-- `_safe_relative_path`. -/
def safeRelativePath (value : Text) (description : String) :
    Except String Text := do
  let path := value.map fun char => if char = '\\' then '/' else char
  let parsed ← urlsplit library path
  if parsed.scheme ≠ [] ∨ parsed.netloc ≠ [] ∨ parsed.query ≠ [] ∨ parsed.fragment ≠ [] ∨
      path.head? = some '/' ∨ (decoded library 3 path).head? = some '/' ∨
      hasTraversal (decoded library 3 path) = true then
    throw (description ++ " must be a confined relative path")
  else return joined '/' (names '/' path)

/-! ## Locations -/

/-- Where a location points: its scheme and authority, or those of the table, and the
path. -/
structure Located where
  scheme : Text
  authority : Text
  path : Text
  deriving DecidableEq, Repr

/-- The first part of `_remote_object_key`. -/
def locate (location tableRoot : Text) : Except String Located := do
  let parsed ← urlsplit library location
  if parsed.query ≠ [] ∨ parsed.fragment ≠ [] ∨
      (parsed.scheme ∉ ["abfs".toList, "abfss".toList] ∧ hasCredentials parsed.netloc = true) then
    throw "Iceberg file URI must not contain credentials, query, or fragment"
  else if parsed.scheme = [] then
    if location = [] ∨ location.head? = some '/' ∨ location.head? = some '\\' then
      throw "Iceberg relative file path is not confined"
    else
      let parent ← urlsplit library tableRoot
      return ⟨parent.scheme, parent.netloc, parent.path.rdropWhile (· = '/') ++ '/' :: location⟩
  else return ⟨parsed.scheme, parsed.netloc, parsed.path⟩

/-- The container and the host of an `abfs` authority. -/
def abfsAuthority (authority : Text) : Text × Text := splitMark '@' authority

/-- The second part: what is wrong with where a location points. -/
def scopeProblem (located : Located) : Option String :=
  let own (name : Text) : Bool := library.lower name = library.lower mount.root.toList
  match mount.backend with
  | .s3 =>
    if located.scheme ∉ ["s3".toList, "s3a".toList, "s3n".toList] ∨
        own located.authority = false then
      some "Iceberg file URI is outside the configured S3 bucket"
    else none
  | .azure =>
    if located.scheme = "az".toList then
      if own located.authority = false then
        some "Iceberg file URI is outside the configured Azure container"
      else none
    else if located.scheme ∈ ["abfs".toList, "abfss".toList] then
      let (container, host) := abfsAuthority located.authority
      let expected := library.lower mount.account.toList
      if located.authority.count '@' > 1 ∨ container.contains ':' = true then
        some "Iceberg abfs URI has an invalid authority"
      else if own container = false then
        some "Iceberg file URI is outside the configured Azure container"
      else if host ≠ [] ∧ expected ≠ [] ∧ library.lower (host.takeWhile (· ≠ '.')) ≠ expected then
        some "Iceberg file URI is outside the configured Azure account"
      else if host ≠ [] ∧ expected = [] then
        some "Iceberg abfs URI requires the mount's storage account"
      else none
    else some "Iceberg file URI must use az, abfs, or abfss for Azure"
  | .localDir | .other _ =>
    some ("unsupported remote Iceberg backend '" ++ mount.backend.text ++ "'")

/-- The last part: the key of a path. -/
def keyOfPath (path : Text) : Except String Text := do
  let decodedOnce := library.utf8.unquote path
  if hasTraversal (decoded library 3 decodedOnce) then
    throw "Iceberg file URI contains path traversal or invalid characters"
  let parts := names '/' decodedOnce
  if parts.any isDots then throw "Iceberg file URI contains path traversal"
  let start ← safeRelativePath library mount.keyPrefix.toList "mount prefix"
  let key := joined '/' parts
  if start ≠ [] ∧ parts.head? ≠ (start.splitOn '/').head? then
    throw "Iceberg file URI is outside the configured mount prefix"
  else if start ≠ [] ∧ key ≠ start ∧ (start ++ ['/']).isPrefixOf key = false then
    throw "Iceberg file URI is outside the configured mount prefix"
  else return key

/-- `_remote_object_key`. -/
def remoteObjectKey (location tableRoot : Text) :
    Except String Text := do
  let located ← locate library location tableRoot
  match scopeProblem library mount located with
  | some problem => throw problem
  | none => keyOfPath library mount located.path

/-! ## The names of a decoded text -/

variable {library : Library} {mount : Mount}

theorem names_unquote (text : Text) :
    names '/' (library.utf8.unquote text) =
      (names '/' text).flatMap fun segment => names '/' (library.utf8.unquote segment) :=
  names_of_separate library.utf8.unquote_append_slash library.utf8.unquote_nil text

/-- Texts with the same names decode to texts with the same names. -/
theorem names_decoded {first second : Text} (same : names '/' first = names '/' second)
    (times : Nat) :
    names '/' (decoded library times first) = names '/' (decoded library times second) := by
  induction times generalizing first second with
  | zero => exact same
  | succ times ih =>
    apply ih
    rw [names_unquote, names_unquote, same]

theorem mem_names_decoded_of_isDots {segment text : Text} (dots : isDots segment = true)
    (member : segment ∈ names '/' text) (times : Nat) :
    segment ∈ names '/' (decoded library times text) := by
  induction times generalizing text with
  | zero => exact member
  | succ times ih =>
    -- Decoding a dot segment once more leaves it there.
    refine ih ?_
    rw [names_unquote]
    refine List.mem_flatMap.mpr ⟨segment, member, ?_⟩
    simp only [isDots, Bool.or_eq_true, decide_eq_true_eq] at dots
    rcases dots with rfl | rfl
    · rw [library.utf8.unquote_dots.1]; decide
    · rw [library.utf8.unquote_dots.2]; decide

theorem decoded_add (times more : Nat) (text : Text) :
    decoded library (times + more) text = decoded library more (decoded library times text) := by
  induction times generalizing text with
  | zero => rw [Nat.zero_add]; rfl
  | succ times ih =>
    rw [Nat.succ_add]
    exact ih _

/-! ## Returned keys -/

/-- The prefix as it is compared: without its empty segments. -/
def comparedPrefix (mount : Mount) : Text := joined '/' (names '/' mount.keyPrefix.toList)

theorem safeRelativePath_ok {start : Text}
    (accepted : safeRelativePath library mount.keyPrefix.toList "mount prefix" = .ok start) :
    start = comparedPrefix mount := by
  have plain : '\\' ∉ mount.keyPrefix.toList := by
    rcases mount.keyPrefix_cases with empty | ⟨text, -, free, -, same⟩
    · simp [empty]
    · simp [same, free]
  have unchanged : (mount.keyPrefix.toList.map fun char => if char = '\\' then '/' else char) =
      mount.keyPrefix.toList := by
    conv_rhs => rw [← List.map_id mount.keyPrefix.toList]
    refine List.map_congr_left fun char member => ?_
    have other : char ≠ '\\' := fun same => plain (same ▸ member)
    rw [if_neg other, id_eq]
  unfold safeRelativePath at accepted
  rw [unchanged] at accepted
  obtain ⟨parsed, -, rest⟩ := bind_eq_ok.mp accepted
  split at rest
  · cases rest
  · cases rest; rfl

/-- What `keyOfPath` has checked of a key that it returns. -/
theorem keyOfPath_ok {path key : Text} (returned : keyOfPath library mount path = .ok key) :
    names '/' key = names '/' (library.utf8.unquote path) ∧
      hasTraversal (decoded library 3 (library.utf8.unquote path)) = false ∧
      (comparedPrefix mount = [] ∨ key = comparedPrefix mount ∨
        comparedPrefix mount ++ ['/'] <+: key) := by
  unfold keyOfPath at returned
  dsimp only at returned
  split at returned
  · cases returned
  next safe =>
    split at returned
    · cases returned
    obtain ⟨start, accepted, rest⟩ := bind_eq_ok.mp returned
    rw [safeRelativePath_ok accepted] at rest
    split at rest
    · cases rest
    split at rest
    · cases rest
    next unrefused =>
      cases rest
      refine ⟨names_names _, by simpa using safe, ?_⟩
      by_cases empty : comparedPrefix mount = []
      · exact .inl empty
      by_cases same : joined '/' (names '/' (library.utf8.unquote path)) = comparedPrefix mount
      · exact .inr (.inl same)
      · refine .inr (.inr (List.isPrefixOf_iff_prefix.mp ?_))
        cases starts : (comparedPrefix mount ++ ['/']).isPrefixOf
            (joined '/' (names '/' (library.utf8.unquote path))) with
        | true => rfl
        | false => exact absurd ⟨empty, same, starts⟩ unrefused

/-- Where a location points is the bucket or container of the mount. Letter case is not
told apart. An `abfs` location that names an account names the mount's. -/
def PointsToOwn (library : Library) (mount : Mount) (located : Located) : Prop :=
  match mount.backend with
  | .s3 => library.lower located.authority = library.lower mount.root.toList
  | .azure =>
    library.lower located.authority = library.lower mount.root.toList ∨
      (library.lower (abfsAuthority located.authority).1 = library.lower mount.root.toList ∧
        ((abfsAuthority located.authority).2 = [] ∨
          library.lower ((abfsAuthority located.authority).2.takeWhile (· ≠ '.')) =
            library.lower mount.account.toList))
  | .localDir | .other _ => False

theorem pointsToOwn_of_scopeProblem {located : Located}
    (fine : scopeProblem library mount located = none) : PointsToOwn library mount located := by
  unfold scopeProblem at fine
  unfold PointsToOwn
  cases backend : mount.backend with
  | s3 =>
    rw [backend] at fine
    dsimp only at fine
    split at fine
    · cases fine
    next own =>
      refine not_not.mp fun other => own (.inr ?_)
      simpa using other
  | azure =>
    rw [backend] at fine
    dsimp only at fine
    split at fine
    · split at fine
      · cases fine
      next own => exact .inl (by simpa using own)
    split at fine
    · split at fine
      · cases fine
      split at fine
      · cases fine
      next own =>
        split at fine
        · cases fine
        next account =>
          split at fine
          · cases fine
          next unnamed =>
            refine .inr ⟨by simpa using own, ?_⟩
            by_cases host : (abfsAuthority located.authority).2 = []
            · exact .inl host
            · refine .inr (not_not.mp fun other => ?_)
              by_cases expected : library.lower mount.account.toList = []
              · exact unnamed ⟨host, expected⟩
              · exact account ⟨host, expected, other⟩
    · cases fine
  | localDir | other => rw [backend] at fine; cases fine

/-- For every location, table root and mount, and whatever the library does with letter
case, odd bytes and odd authorities: a returned key belongs to a location in the bucket
or container of the mount, equals the prefix of the mount without its empty segments or
lies below it, and has no dot segment, also not after up to three further decodings. -/
theorem remote_key_confined (library : Library) (mount : Mount) (location tableRoot key : Text)
    (returned : remoteObjectKey library mount location tableRoot = .ok key) :
    (∃ located, locate library location tableRoot = .ok located ∧
      PointsToOwn library mount located) ∧
    (comparedPrefix mount = [] ∨ key = comparedPrefix mount ∨
      comparedPrefix mount ++ ['/'] <+: key) ∧
    ∀ times ≤ 3, ∀ segment ∈ (decoded library times key).splitOn '/', isDots segment = false := by
  unfold remoteObjectKey at returned
  obtain ⟨located, pointed, rest⟩ := bind_eq_ok.mp returned
  split at rest
  · cases rest
  next fine =>
    obtain ⟨sameNames, safe, below⟩ := keyOfPath_ok rest
    refine ⟨⟨located, pointed, pointsToOwn_of_scopeProblem fine⟩, below, ?_⟩
    intro times bounded segment member
    cases dots : isDots segment with
    | false => rfl
    | true =>
      -- A dot segment that comes up stays up to the third decoding, which was checked.
      have named : segment ∈ names '/' (decoded library times key) := by
        refine mem_names_iff.mpr ⟨member, ?_⟩
        rintro rfl
        cases dots
      have last : segment ∈ names '/' (decoded library 3 key) := by
        have stays := @mem_names_decoded_of_isDots library _ _ dots named (3 - times)
        rwa [← decoded_add, Nat.add_sub_cancel' bounded] at stays
      rw [names_decoded sameNames] at last
      simp only [hasTraversal, Bool.or_eq_false_iff, List.any_eq_false] at safe
      exact absurd dots (safe.2 segment (mem_names_iff.mp last).1)

/-- A library for texts of ASCII: other bytes become the replacement character. -/
def asciiLibrary : Library where
  utf8 := {
    decode := .map fun byte =>
      if byte < 128 then .ofNat byte.toNat else .ofNat 0xFFFD
    nil := rfl
    ascii := fun before byte after small => by
      rw [List.map_append, List.map_cons, if_pos small] }
  lower := .map .toLower
  refusesNetloc := fun netloc => netloc.contains '[' != netloc.contains ']'

/-- An S3 mount of a subtree of the bucket `lake`. -/
def lakeMount (keyPrefix : String) (normalised : ∃ text, keyPrefix = normPrefix text) : Mount where
  bucket := "tables"
  backend := .s3
  root := "lake"
  keyPrefix := keyPrefix
  normalised := normalised

/-- A relative location of a table below the prefix `sales/` keeps its escapes. -/
theorem remote_key_confined_relative :
    let mount := lakeMount "sales/" ⟨"sales", by decide +kernel⟩
    let key := "sales/orders/data/a%2Fb.parquet".toList
    (comparedPrefix mount = [] ∨ key = comparedPrefix mount ∨
        comparedPrefix mount ++ ['/'] <+: key) ∧
      ∀ times ≤ 3, ∀ segment ∈ (decoded asciiLibrary times key).splitOn '/',
        isDots segment = false :=
  (remote_key_confined asciiLibrary (lakeMount "sales/" ⟨"sales", by decide +kernel⟩)
    "data/a%252Fb.parquet".toList "s3://lake/sales/orders".toList
    "sales/orders/data/a%2Fb.parquet".toList (by decide +kernel)).2

/-- The mount of the subtree `a//b/` returns a key that does not lie in it. -/
theorem remote_key_below_other_prefix :
    let mount := lakeMount "a//b/" ⟨"a//b", by decide +kernel⟩
    remoteObjectKey asciiLibrary mount "s3://lake/a/b/x".toList [] = .ok "a/b/x".toList ∧
      mount.keyPrefix.toList.dropLast ≠ "a/b/x".toList ∧
      ¬ mount.keyPrefix.toList <+: "a/b/x".toList := by
  decide +kernel

end ShortcutProxy.IcebergLocations
