import ShortcutProxy.PathText
import ShortcutProxy.Segments
import ShortcutProxy.TableConfig

/-!
# Mounted buckets

A mount maps a bucket to a storage backend and a prefix in it. The entries of the
configuration file are read, checked one by one in the order of the checks of
`_build_mounts`, and kept by bucket name. A refused entry is skipped, and a later
entry for a bucket replaces an earlier one.

Connection settings of the backends that no check here reads are left out. A mount
that was accepted carries the fact that no check objected to it.
-/

namespace ShortcutProxy.Mounts

open PathText TableConfig

/-! ## Entries of the configuration -/

/-- The backend of a mount. -/
inductive Backend where
  | localDir
  | s3
  | azure
  | other (name : String)
  deriving DecidableEq, Repr

def Backend.ofText : String → Backend
  | "local" => .localDir
  | "s3" => .s3
  | "azure" => .azure
  | name => .other name

def Backend.text : Backend → String
  | .localDir => "local"
  | .s3 => "s3"
  | .azure => "azure"
  | .other name => name

/-- `_SUPPORTED_BACKENDS`. -/
def Backend.supported : Backend → Bool
  | .localDir | .s3 | .azure => true
  | .other _ => false

/-- The table format of a mount. A plain mount serves its objects as they are. -/
inductive Format where
  | plain
  | delta
  | iceberg
  | other (name : String)
  deriving DecidableEq, Repr

def Format.ofText : String → Format
  | "" => .plain
  | "delta" => .delta
  | "iceberg" => .iceberg
  | name => .other name

/-- `output_format`. -/
inductive OutputFormat where
  | unset
  | auto
  | delta
  | iceberg
  | other (name : String)
  deriving DecidableEq, Repr

def OutputFormat.ofText : String → OutputFormat
  | "" => .unset
  | "auto" => .auto
  | "delta" => .delta
  | "iceberg" => .iceberg
  | name => .other name

/-- A value of JSON, as far as `_parse_snapshot_id` tells them apart. -/
inductive SnapshotValue where
  | null
  | boolean (value : Bool)
  | integer (value : Int)
  | text (value : String)
  | other
  deriving DecidableEq, Repr

/-- `_parse_snapshot_id`. -/
def parseSnapshotId : SnapshotValue → Except String (Option Int)
  | .null => .ok none
  | .text value =>
    if value = "" then .ok none
    else if value.toList.all Char.isDigit = false then
      .error "snapshot_id must be a positive integer"
    else
      let number : Nat :=
        value.toList.foldl (fun read digit => 10 * read + (digit.toNat - 48)) 0
      if number = 0 then .error "snapshot_id must be a positive integer"
      else .ok (some number)
  | .integer value =>
    if value ≤ 0 then .error "snapshot_id must be a positive integer" else .ok (some value)
  | .boolean _ | .other => .error "snapshot_id must be a positive integer"

/-- One entry of the configuration file, with the texts of its fields. A missing
text is empty. The columns are as `_parse_columns` reads them, or its complaint. -/
structure MountEntry where
  bucket : String := ""
  backend : String := ""
  root : String := ""
  keyPrefix : String := ""
  readOnly : Bool := true
  account : String := ""
  format : String := ""
  keyColumn : String := ""
  columns : Except String (List ColumnDef) := .ok []
  outputFormat : String := ""
  snapshotId : SnapshotValue := .null

/-! ## Mounts -/

/-- `_norm_prefix`. -/
def normPrefix (text : String) : String :=
  let trimmed := trim (· = '/') (replaceChar '\\' '/' text)
  if trimmed = "" then "" else trimmed ++ "/"

/-- One bucket served from a storage backend. -/
structure Mount where
  bucket : String
  backend : Backend
  root : String
  keyPrefix : String
  readOnly : Bool := true
  account : String := ""
  format : Format := .plain
  keyColumn : String := ""
  columns : List ColumnDef := []
  outputFormat : OutputFormat := .unset
  snapshotId : Option Int := none
  normalised : ∃ text, keyPrefix = normPrefix text

/-- `_mount_from_json`. -/
def mountFromJson (entry : MountEntry) : Except String Mount := do
  let columns ← entry.columns
  let snapshotId ← parseSnapshotId entry.snapshotId
  return {
    bucket := strip entry.bucket
    backend := .ofText (lower (strip (if entry.backend = "" then "local" else entry.backend)))
    root := strip entry.root
    keyPrefix := normPrefix entry.keyPrefix
    readOnly := entry.readOnly
    account := strip entry.account
    format := .ofText (lower (strip entry.format))
    keyColumn := strip entry.keyColumn
    columns := columns
    outputFormat := .ofText (lower (strip entry.outputFormat))
    snapshotId := snapshotId
    normalised := ⟨entry.keyPrefix, rfl⟩ }

/-- A character of `[a-z0-9]`. -/
def lowerOrDigit (char : Char) : Bool := char.isLower || char.isDigit

/-- `_VALID_BUCKET`, on a name without white space around it. -/
def validBucket (bucket : String) : Bool :=
  match bucket.toList with
  | [] => false
  | first :: rest =>
    lowerOrDigit first && decide (1 ≤ rest.length) && decide (rest.length ≤ 62) &&
      rest.all fun char => lowerOrDigit char || char = '.' || char = '-'

/-- `validate_object_store_policy`. Both formats support both kinds of transform. -/
def policyProblem (format : Format) (keyColumn : String) (columns : List ColumnDef) :
    Option String :=
  match format with
  | .plain => some "Unsupported object-store format ''; supported: ('delta', 'iceberg')"
  | .other name =>
    some ("Unsupported object-store format '" ++ name ++ "'; supported: ('delta', 'iceberg')")
  | .delta | .iceberg =>
    let key := strip keyColumn
    if columns.any (fun column => column.transform.isSome && key ≠ "" &&
        (key = column.name || key = column.sourceName)) then
      some ("key column '" ++ key ++ "' cannot have a transform (object-store mount)")
    else none

/-- What `_build_mounts` objects to in the table format of a mount. -/
def Mount.formatProblem (mount : Mount) : Option String :=
  if mount.format = .plain then none
  else match policyProblem mount.format mount.keyColumn mount.columns with
    | some problem => some ("[mounts] mount '" ++ mount.bucket ++ "': " ++ problem ++ "; skipped.")
    | none =>
      match mount.outputFormat with
      | .other name =>
        some ("[mounts] mount '" ++ mount.bucket ++ "': output_format '" ++ name ++
          "' must be 'auto', 'delta', or 'iceberg'; skipped.")
      | _ =>
        if mount.columns = [] then
          some ("[mounts] tokenizing mount '" ++ mount.bucket ++
            "' needs a 'columns' policy; skipped.")
        else none

/-- What `_build_mounts` objects to in a pinned snapshot. -/
def Mount.snapshotProblem (mount : Mount) : Option String :=
  if mount.snapshotId.any (fun pinned => pinned ≤ 0 || mount.format ≠ .iceberg) then
    some ("[mounts] mount '" ++ mount.bucket ++ "': snapshot_id must be positive and only " ++
      "applies to Iceberg mounts; skipped.")
  else none

/-- What `_build_mounts` objects to in a mount first, beside the reserved bucket of
the warehouse. -/
def Mount.problem (reserved : String) (mount : Mount) : Option String :=
  let quoted := "'" ++ mount.bucket ++ "'"
  if mount.bucket = "" then some "[mounts] entry missing 'bucket'; skipped."
  else if mount.bucket = reserved then
    some ("[mounts] bucket " ++ quoted ++ " is reserved for the DB warehouse; skipped.")
  else if validBucket mount.bucket = false then
    some ("[mounts] bucket " ++ quoted ++ " is not a valid S3 bucket name; skipped.")
  else if mount.backend.supported = false then
    some ("[mounts] backend '" ++ mount.backend.text ++
      "' is unsupported (expected one of ('local', 's3', 'azure')); bucket " ++ quoted ++
      " skipped.")
  else if mount.root = "" then
    some (match mount.backend with
      | .localDir | .other _ => "[mounts] local mount " ++ quoted ++ " missing 'root'; skipped."
      | .s3 => "[mounts] s3 mount " ++ quoted ++ " missing 'root' (upstream bucket); skipped."
      | .azure => "[mounts] azure mount " ++ quoted ++ " missing 'root' (container); skipped.")
  else mount.formatProblem <|> mount.snapshotProblem

/-- A mount that `_build_mounts` accepted. It is served read-only whatever its
entry says. -/
structure ServedMount (reserved : String) extends Mount where
  accepted : toMount.problem reserved = none
  servedReadOnly : readOnly = true

/-- One round of `_build_mounts`: the mount of an entry, or the reason to skip it. -/
def loadMount (reserved : String) (entry : MountEntry) : Except String (ServedMount reserved) :=
  match mountFromJson entry with
  | .error complaint =>
    .error ("[mounts] entry '" ++ entry.bucket ++ "': " ++ complaint ++ "; skipped.")
  | .ok mount =>
    let served := { mount with readOnly := true }
    match accepted : served.problem reserved with
    | some problem => .error problem
    | none => .ok ⟨served, accepted, rfl⟩

/-- The mounts after one more entry. The latest mount of a bucket stands before the
ones that it replaced. -/
def addEntry {reserved : String} (mounts : List (String × ServedMount reserved))
    (entry : MountEntry) : List (String × ServedMount reserved) :=
  match loadMount reserved entry with
  | .error _ => mounts
  | .ok mount => (mount.bucket, mount) :: mounts

/-- `_build_mounts`. -/
def buildMounts (reserved : String) (entries : List MountEntry) :
    List (String × ServedMount reserved) :=
  entries.foldl addEntry []

/-- `get_mount`. -/
def getMount {reserved : String} (enabled : Bool) (mounts : List (String × ServedMount reserved))
    (bucket : String) : Option (ServedMount reserved) :=
  if enabled then mounts.lookup bucket else none

/-! ## The prefix of a mount -/

/-- A text has no backslashes once they are replaced. -/
theorem backslash_not_mem_map (text : List Char) :
    '\\' ∉ text.map fun char => if char = '\\' then '/' else char := by
  intro member
  obtain ⟨char, -, same⟩ := List.mem_map.mp member
  split at same
  · exact absurd same (by decide)
  next other => exact other same

/-- The prefix is empty, or a text without slashes around it and then a slash. -/
theorem Mount.keyPrefix_cases (mount : Mount) : mount.keyPrefix.toList = [] ∨
    ∃ text, text.head? ≠ some '/' ∧ '\\' ∉ text ∧ text ≠ [] ∧
      mount.keyPrefix.toList = text ++ ['/'] := by
  obtain ⟨raw, same⟩ := mount.normalised
  rw [same, normPrefix]
  split
  · exact .inl rfl
  next nonempty =>
    refine .inr ⟨(trim (· = '/') (replaceChar '\\' '/' raw)).toList, ?_, ?_, ?_, ?_⟩
    · rw [trim, String.toList_ofList]
      exact Segments.head?_trim_ne '/' _
    · intro member
      rw [trim, String.toList_ofList] at member
      have inside := (List.dropWhile_subset _) ((List.rdropWhile_prefix _ _).subset member)
      rw [replaceChar, String.toList_ofList] at inside
      exact backslash_not_mem_map _ inside
    · simpa using nonempty
    · rw [String.toList_append]; rfl

/-! ## What the checks ensure -/

variable {reserved bucket : String} {mount : ServedMount reserved}

theorem ServedMount.valid (mount : ServedMount reserved) : validBucket mount.bucket = true := by
  have accepted := mount.accepted
  unfold Mount.problem at accepted
  grind

/-- Mounts are kept under valid names. -/
theorem valid_of_mem_buildMounts (entries : List MountEntry) :
    ∀ kept ∈ buildMounts reserved entries, validBucket kept.1 = true := by
  induction entries using List.reverseRecOn with
  | nil => simp [buildMounts]
  | append_singleton entries entry valid =>
    rw [buildMounts, List.foldl_concat, addEntry]
    cases loadMount reserved entry with
    | error _ => exact valid
    | ok mount => exact List.forall_mem_cons.mpr ⟨mount.valid, valid⟩

theorem validBucket_of_getMount {entries : List MountEntry} {enabled : Bool}
    (found : getMount enabled (buildMounts reserved entries) bucket = some mount) :
    validBucket bucket = true := by
  unfold getMount at found
  split at found
  · obtain ⟨before, after, same, -⟩ := List.lookup_eq_some_iff.mp found
    exact valid_of_mem_buildMounts entries (bucket, mount) (by simp [same])
  · cases found

end ShortcutProxy.Mounts
