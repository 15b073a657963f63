import ShortcutProxy.Mounts

/-!
# Passthrough serving of mounted buckets

A plain mount serves listings and objects of its backend, confined to the subtree of
its prefix. An object key is put behind the prefix and normalised, which refuses `..`.
A flat listing compares whole keys with the prefix. A folder listing asks the backend
for one directory level: a remote backend refuses `..` there as well, a local one
resolves it and only checks that the result is still below the root of the store.

A request stays below the prefix on every content of the backend just when: an object
key has a segment besides `.` and the prefix has none such; and a folder listing on a
local backend resolves to a folder below the prefix. The listing prefix `../other/`
does not.

Texts are lists of characters. `unquote` and the reading of a range header are
parameters. The file system has no symbolic links, and a path below a file is missing.
The two remote backends answer alike, all pages of a listing at once. The order of
listings is left out. A mount with a table format is served elsewhere, from objects
that are not those of the backend.
-/

namespace ShortcutProxy.Passthrough

open Segments Mounts

abbrev Text := List Char

local instance lawfulText : LawfulBEq Text := inferInstance

/-- The segments of a path from the root of a tree. -/
abbrev Path := List Text

/-! ## Keys -/

/-- The text with slashes in place of backslashes. -/
def withSlashes (text : Text) : Text := text.map fun char => if char = '\\' then '/' else char

/-- The segments of a text between its slashes. -/
def segmentsOf (text : Text) : List Text := text.splitOn '/'

/-- A segment that names something. -/
def ordinary (segment : Text) : Bool := segment ≠ [] && segment ≠ ['.']

/-- The segment that names the folder above. -/
def above : Text := ['.', '.']

/-- `_normalize_key`. -/
def normalizeKey (key : Text) : Except String Text :=
  let trimmed := ((withSlashes key).dropWhile (· = '/')).rdropWhile (· = '/')
  if key = [] then .error "artifact key must be a non-empty string"
  else if trimmed = [] then .error "artifact key must not be empty after normalization"
  else if above ∈ segmentsOf trimmed then
    .error ("artifact key must not contain '..': '" ++ .ofList key ++ "'")
  else
    let parts := (segmentsOf trimmed).filter ordinary
    if parts = [] then .error ("invalid artifact key: '" ++ .ofList key ++ "'")
    else .ok (joined '/' parts)

/-- `_reject_traversal`. -/
def rejectTraversal (listed : Text) : Except String Text :=
  let cleaned := (withSlashes listed).dropWhile (· = '/')
  if above ∈ segmentsOf cleaned then
    .error ("listing prefix must not contain '..': '" ++ .ofList listed ++ "'")
  else .ok cleaned

/-! ## Backends -/

/-- An object or a file. -/
structure File where
  content : List UInt8
  mtimeMs : Option Int := none
  deriving DecidableEq, Repr

/-- `ObjectStat`. -/
structure ObjectStat where
  key : Text
  size : Nat
  mtimeMs : Option Int
  deriving DecidableEq, Repr

/-- One entry of a folder, with the key at which the backend has it. A folder has the
key that the objects in it start with. -/
structure Entry where
  name : Text
  isFolder : Bool
  size : Nat
  mtimeMs : Option Int
  origin : Text
  deriving DecidableEq, Repr

/-- The files and folders of a machine, by their paths. Nothing lies below a file. -/
structure FileSystem where
  files : List (Path × File)
  directories : List Path
  apart : ∀ file ∈ files, ∀ path ∈ files.map Prod.fst ++ directories,
    file.1 <+: path → path = file.1

variable (system : FileSystem)

def FileSystem.paths : List Path :=
  system.files.map Prod.fst ++ system.directories

/-- The folders are those named, and those with something in them. -/
def FileSystem.isDir (path : Path) : Bool :=
  path = [] || path ∈ system.directories ||
    system.paths.any fun other => path.isPrefixOf other && path ≠ other

def FileSystem.file (path : Path) : Option File := system.files.lookup path

/-- One segment of a path, from a folder on. -/
def step (folder : Path) (segment : Text) : Path :=
  if segment = [] ∨ segment = ['.'] then folder
  else if segment = above then folder.dropLast
  else folder ++ [segment]

/-- `os.path.abspath` of a path below an absolute one. -/
def resolved (root : Path) (segments : List Text) : Path := segments.foldl step root

/-- The folder that a path leads to, if every folder on the way exists. -/
def FileSystem.walk (system : FileSystem) : Path → List Text → Option Path
  | folder, [] => if system.isDir folder then some folder else none
  | folder, segment :: rest =>
    if system.isDir folder then system.walk (step folder segment) rest else none

/-- The names in a folder. -/
def FileSystem.names (folder : Path) : List Text :=
  (system.paths.filterMap fun path =>
    if folder.isPrefixOf path then path[folder.length]? else none).dedup

/-- The check of `LocalDirStore` that a path is below its root. No path but the root
itself starts with a second slash. -/
def inRoot (root path : Path) : Bool := path = root || (root ≠ [] && root.isPrefixOf path)

/-- The names of files that a local store keeps to itself. -/
def internal (name : Text) : Bool :=
  ".tmp".toList.isSuffixOf name || name = ".fsp-cas.lock".toList

/-- `LocalDirStore._path`. -/
def localPath (root : Path) (key : Text) : Except String Path := do
  let normal ← normalizeKey key
  let path := resolved root (segmentsOf normal)
  if inRoot root path then return path
  else throw ("artifact key escapes store root: '" ++ .ofList key ++ "'")

/-- The segments that `LocalDirStore.list_dir` appends to its root. -/
def listedSegments (listed : Text) : List Text :=
  let trimmed := ((withSlashes listed).dropWhile (· = '/')).rdropWhile (· = '/')
  if trimmed = [] then [] else segmentsOf trimmed

/-- The folder of a listing in `LocalDirStore.list_dir`, from the root of the store on. -/
def listedFolder (root : Path) (listed : Text) : Except String (List Text × Path) :=
  let segments := listedSegments listed
  let path := resolved root segments
  if inRoot root path then .ok (segments, path.drop root.length)
  else .error ("list prefix escapes store root: '" ++ .ofList listed ++ "'")

/-- An entry of a local folder, unless it is internal. -/
def localEntry (root folder : Path) (name : Text) : Option Entry :=
  if system.isDir (root ++ folder ++ [name]) then
    some ⟨name, true, 0, none, closed '/' (folder ++ [name])⟩
  else match system.file (root ++ folder ++ [name]) with
    | some file =>
      if internal name then none
      else some ⟨name, false, file.content.length, file.mtimeMs, joined '/' (folder ++ [name])⟩
    | none => none

/-- `LocalDirStore.head`. A folder has a status as well, of no length here. -/
def localHead (root : Path) (system : FileSystem) (key : Text) :
    Except String (Option ObjectStat) := do
  let path ← localPath root key
  let normal ← normalizeKey key
  match system.file path with
  | some file => return some ⟨normal, file.content.length, file.mtimeMs⟩
  | none => return if system.isDir path then some ⟨normal, 0, none⟩ else none

/-- `LocalDirStore.list`: the files whose paths from the root start with a text. -/
def localList (root : Path) (system : FileSystem) (listed : Text) : List ObjectStat :=
  let start := (withSlashes listed).dropWhile (· = '/')
  system.files.filterMap fun (path, file) =>
    let relative := joined '/' (path.drop root.length)
    if root.isPrefixOf path && !(path.getLast?.any internal) && start.isPrefixOf relative then
      some ⟨relative, file.content.length, file.mtimeMs⟩
    else none

/-- `LocalDirStore.list_dir`: one level of a folder. -/
def localListDir (root : Path) (system : FileSystem) (listed : Text) :
    Except String (List Entry) := do
  let (segments, folder) ← listedFolder root listed
  match system.walk root segments with
  | none => return []
  | some path => return (system.names path).filterMap (localEntry system root folder)

/-- The objects of an upstream bucket or container, by their keys. -/
abbrev Objects := List (Text × File)

/-- `head` of the remote stores. -/
def remoteHead (objects : Objects) (key : Text) : Except String (Option ObjectStat) := do
  let normal ← normalizeKey key
  return (objects.lookup normal).map fun file => ⟨normal, file.content.length, file.mtimeMs⟩

/-- `list` of the remote stores. -/
def remoteList (objects : Objects) (listed : Text) : Except String (List ObjectStat) := do
  let start ← rejectTraversal listed
  return (objects.filter fun object => start.isPrefixOf object.1).map fun (key, file) =>
    ⟨key, file.content.length, file.mtimeMs⟩

/-- One object of a remote folder listing: its common prefix, or the object itself. -/
def remoteEntry (start key : Text) (file : File) : Option Entry :=
  let rest := key.drop start.length
  let name := rest.takeWhile (· ≠ '/')
  if name = [] then none
  else if rest.contains '/' then some ⟨name, true, 0, none, start ++ name ++ ['/']⟩
  else some ⟨name, false, file.content.length, file.mtimeMs, key⟩

/-- The prefix of a folder, with a slash at its end. -/
def asFolder (text : Text) : Text :=
  if text ≠ [] ∧ text.getLast? ≠ some '/' then text ++ ['/'] else text

/-- `list_dir` of the remote stores. -/
def remoteListDir (objects : Objects) (listed : Text) : Except String (List Entry) := do
  let start := asFolder (← rejectTraversal listed)
  return (objects.filterMap fun object =>
    if start.isPrefixOf object.1 then remoteEntry start object.1 object.2 else none).dedup

/-- A backend with its content. -/
inductive Store where
  | localDir (root : Path) (system : FileSystem)
  | remote (objects : Objects)

/-- What a backend is, apart from its content. -/
inductive Site where
  | localDir (root : Path)
  | remote
  deriving DecidableEq, Repr

def Store.site : Store → Site
  | .localDir root _ => .localDir root
  | .remote _ => .remote

def Store.head (store : Store) (key : Text) : Except String (Option ObjectStat) :=
  match store with
  | .localDir root system => localHead root system key
  | .remote objects => remoteHead objects key

/-- `get_stream`: the bytes of a key that `head` has found. -/
def Store.content (store : Store) (key : Text) : Option (List UInt8) :=
  match store with
  | .localDir root system =>
    (localPath root key).toOption.bind fun path => (system.file path).map (·.content)
  | .remote objects =>
    (normalizeKey key).toOption.bind fun normal => (objects.lookup normal).map (·.content)

def Store.list (store : Store) (listed : Text) : Except String (List ObjectStat) :=
  match store with
  | .localDir root system => .ok (localList root system listed)
  | .remote objects => remoteList objects listed

def Store.listDir (store : Store) (listed : Text) : Except String (List Entry) :=
  match store with
  | .localDir root system => localListDir root system listed
  | .remote objects => remoteListDir objects listed

/-! ## Handlers -/

/-- What a mounted bucket is asked for. -/
inductive Request where
  | list (s3Prefix delimiter : Text)
  | head (key : Text)
  | get (key s3Prefix delimiter : Text) (range : Nat → Option (Nat × Nat))

/-- One item of a listing: the key that is shown, and the key at which the backend has
what it stands for. -/
structure Item where
  shown : Text
  origin : Text
  size : Nat
  mtimeMs : Int
  deriving DecidableEq, Repr

/-- What is answered. Objects carry the key at which the backend has them. -/
inductive Response where
  | tokenized
  | listing (flat common : List Item)
  | refused
  | missing
  | failed
  | headed (stat : ObjectStat)
  | unsatisfiable (stat : ObjectStat)
  | object (stat : ObjectStat) (offset length : Nat) (body : Option (List UInt8))
  deriving DecidableEq, Repr

/-- The keys of the backend that a response names, sizes or returns. -/
def Response.origins : Response → List Text
  | .listing flat common => flat.map (·.origin) ++ common.map (·.origin)
  | .headed stat | .unsatisfiable stat | .object stat .. => [stat.key]
  | .tokenized | .refused | .missing | .failed => []

section Handlers

variable (unquote : Text → Text) (mount : Mount) (store : Store)

/-- The prefix of the mount, as text. -/
def start : Text := mount.keyPrefix.toList

/-- `_backend_key`. -/
def backendKey (key : Text) : Text :=
  start mount ++ (withSlashes (unquote key)).dropWhile (· = '/')

/-- The listing prefix behind the prefix of the mount. -/
def listedText (s3Prefix : Text) : Text :=
  start mount ++ (withSlashes s3Prefix).dropWhile (· = '/')

/-- The key without the prefix of the mount. -/
def bucketKey (key : Text) : Text :=
  if (start mount).isPrefixOf key then key.drop (start mount).length else key

/-- The folder part of a listing prefix: all up to its last slash. -/
def folderPart (full : Text) : Text := full.rdropWhile (· ≠ '/')

/-- What the names of a folder listing must start with. -/
def leafPart (full : Text) : Text := full.rtakeWhile (· ≠ '/')

/-- `list_objects`. -/
def listObjects (s3Prefix delimiter : Text) : Response :=
  let full := listedText mount s3Prefix
  if mount.format ≠ .plain then .tokenized
  else if delimiter = ['/'] then
    let entries := ((store.listDir (folderPart full)).toOption.getD []).filter fun entry =>
      (leafPart full).isPrefixOf entry.name
    let item (entry : Entry) (ending : Text) : Item :=
      ⟨bucketKey mount (folderPart full ++ entry.name) ++ ending, entry.origin, entry.size,
        entry.mtimeMs.getD 0⟩
    .listing ((entries.filter fun entry => !entry.isFolder).map (item · []))
      ((entries.filter fun entry => entry.isFolder).map (item · ['/']))
  else match store.list full with
    | .error _ => .failed
    | .ok stats =>
      .listing (stats.map fun stat =>
        ⟨bucketKey mount stat.key, stat.key, stat.size, stat.mtimeMs.getD 0⟩) []

/-- `head_object`. -/
def headObject (key : Text) : Response :=
  if mount.format ≠ .plain then .tokenized
  else match store.head (backendKey unquote mount key) with
    | .error _ => .refused
    | .ok none => .missing
    | .ok (some stat) => .headed stat

/-- `get_object`. -/
def getObject (key s3Prefix delimiter : Text) (range : Nat → Option (Nat × Nat)) : Response :=
  if mount.format ≠ .plain then .tokenized
  else if key = [] then listObjects mount store s3Prefix delimiter
  else match store.head (backendKey unquote mount key) with
    | .error _ => .refused
    | .ok none => .missing
    | .ok (some stat) =>
      match range stat.size with
      | none => .unsatisfiable stat
      | some (offset, length) =>
        .object stat offset length ((store.content (backendKey unquote mount key)).map
          fun body => (body.drop offset).take length)

/-- The answer to a request. -/
def answer : Request → Response
  | .list s3Prefix delimiter => listObjects mount store s3Prefix delimiter
  | .head key => headObject unquote mount store key
  | .get key s3Prefix delimiter range =>
    getObject unquote mount store key s3Prefix delimiter range

end Handlers

end ShortcutProxy.Passthrough
