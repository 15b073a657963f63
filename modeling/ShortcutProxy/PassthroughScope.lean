import ShortcutProxy.Fallible
import ShortcutProxy.Passthrough

/-!
# What a mounted bucket shows

Every answer names keys of the backend: those of objects it heads, returns or lists,
and those that the objects of a listed folder start with. This module says for which
requests all of them start with the prefix of the mount, whatever the backend holds.
-/

namespace ShortcutProxy.Passthrough

open Fallible Segments Mounts List Response FileSystem

/-! ## The prefix of a mount -/

theorem backslash_not_mem_withSlashes (text : Text) : '\\' ∉ withSlashes text :=
  backslash_not_mem_map text

theorem withSlashes_eq_self {text : Text} (free : '\\' ∉ text) : withSlashes text = text := by
  conv_rhs => rw [← map_id text]
  refine map_congr_left fun char member => ?_
  have other : char ≠ '\\' := fun same => free (same ▸ member)
  rw [if_neg other, id_eq]

section Prefix

variable (mount : Mount)

/-- The segments of the prefix. -/
def prefixSegments : List Text :=
  if start mount = [] then [] else segmentsOf (start mount).dropLast

theorem start_cases : start mount = [] ∨
    ∃ text, text.head? ≠ some '/' ∧ '\\' ∉ text ∧ text ≠ [] ∧ start mount = text ++ ['/'] :=
  mount.keyPrefix_cases

theorem closed_prefixSegments : closed '/' (prefixSegments mount) = start mount := by
  unfold prefixSegments
  rcases start_cases mount with empty | ⟨text, -, -, -, same⟩
  · rw [if_pos empty, empty]; rfl
  · rw [if_neg (by simp [same]), same, dropLast_concat, segmentsOf,
      ← joined_append_separator (splitOn_ne_nil _ _), joined, intercalate_splitOn]

theorem prefixSegments_free : ∀ segment ∈ prefixSegments mount, '/' ∉ segment := by
  unfold prefixSegments
  split
  · simp
  · exact fun segment member => not_mem_of_mem_splitOn member

theorem backslash_not_mem_start : '\\' ∉ start mount := by
  rcases start_cases mount with empty | ⟨text, -, free, -, same⟩
  · simp [empty]
  · simp [same, free]

/-- Cleaning a text that starts with the prefix keeps it. -/
theorem start_isPrefix_cleaned {text : Text} (starts : start mount <+: text) :
    start mount <+: (withSlashes text).dropWhile (· = '/') := by
  obtain ⟨tail, rfl⟩ := starts
  rcases start_cases mount with empty | ⟨first, unrooted, free, nonempty, same⟩
  · rw [empty]; exact nil_prefix
  · rw [withSlashes, map_append, ← withSlashes, ← withSlashes,
      withSlashes_eq_self (backslash_not_mem_start mount), same]
    cases first with
    | nil => exact absurd rfl nonempty
    | cons char rest =>
      have kept : char ≠ '/' := fun slashed => unrooted (by simp [slashed])
      rw [cons_append, cons_append, dropWhile_cons_of_neg (by simpa using kept)]
      exact prefix_append (char :: (rest ++ ['/'])) _

theorem start_isPrefix_listedText (s3Prefix : Text) : start mount <+: listedText mount s3Prefix :=
  prefix_append _ _

/-- The folder of a listing starts with the prefix. -/
theorem start_isPrefix_folderPart (s3Prefix : Text) :
    start mount <+: folderPart (listedText mount s3Prefix) := by
  rw [folderPart, listedText, rdropWhile_append_of_last]
  · exact prefix_append _ _
  · intro nonempty
    rcases start_cases mount with empty | ⟨text, -, -, -, same⟩
    · exact absurd empty nonempty
    · simp [same]

end Prefix

/-! ## Object keys -/

/-- The segments of a text that has slashes around it, but for empty ones. -/
theorem mem_segmentsOf_trim {segment : Text} (nonempty : segment ≠ []) (text : Text) :
    segment ∈ segmentsOf ((text.dropWhile (· = '/')).rdropWhile (· = '/')) ↔
      segment ∈ segmentsOf text := by
  have same : List.filter (fun segment : Text => decide (segment ≠ [])) _ = _ :=
    filter_splitOn_trim '/' rfl text
  have listed := congrArg (segment ∈ ·) same
  simpa [segmentsOf, mem_filter, nonempty] using listed

variable {key listed : Text} {root : Path} {segments : List Text}

variable {normal : Text}

/-- When a key is accepted, and as what. -/
theorem normalizeKey_ok_iff :
    normalizeKey key = .ok normal ↔ above ∉ segmentsOf (withSlashes key) ∧
      (segmentsOf (withSlashes key)).filter ordinary ≠ [] ∧
      normal = joined '/' ((segmentsOf (withSlashes key)).filter ordinary) := by
  have parts : (segmentsOf (((withSlashes key).dropWhile (· = '/')).rdropWhile
      (· = '/'))).filter ordinary = (segmentsOf (withSlashes key)).filter ordinary :=
    filter_splitOn_trim '/' rfl _
  have refused := mem_segmentsOf_trim (show above ≠ [] by decide) (withSlashes key)
  unfold normalizeKey
  simp only [refused, parts]
  split
  next empty =>
    subst empty
    exact iff_of_false nofun fun accepts => accepts.2.1 rfl
  split
  next empty =>
    rw [empty] at parts
    exact iff_of_false nofun fun accepts => accepts.2.1 parts.symm
  split
  next traversing => exact iff_of_false nofun fun accepts => accepts.1 traversing
  next plain =>
    split
    next empty => exact iff_of_false nofun fun accepts => accepts.2.1 empty
    next some =>
      constructor
      · intro accepted
        cases accepted
        exact ⟨plain, some, rfl⟩
      · rintro ⟨-, -, rfl⟩; rfl

/-- The segments of an accepted key name something. -/
theorem segmentsOf_normal (accepted : normalizeKey key = .ok normal) :
    segmentsOf normal ≠ [] ∧
      ∀ segment ∈ segmentsOf normal, ordinary segment = true ∧ segment ≠ above := by
  obtain ⟨plain, some, rfl⟩ := normalizeKey_ok_iff.mp accepted
  have free : ∀ segment ∈ (segmentsOf (withSlashes key)).filter ordinary, '/' ∉ segment :=
    fun segment member => not_mem_of_mem_splitOn (mem_filter.mp member).1
  have parts : segmentsOf (joined '/' ((segmentsOf (withSlashes key)).filter ordinary)) =
      (segmentsOf (withSlashes key)).filter ordinary :=
    splitOn_intercalate '/' free some
  rw [parts]
  refine ⟨some, fun segment member => ⟨(mem_filter.mp member).2, ?_⟩⟩
  rintro rfl
  exact plain (mem_filter.mp member).1

theorem resolved_ordinary
    (named : ∀ segment ∈ segments, ordinary segment = true ∧ segment ≠ above) :
    resolved root segments = root ++ segments := by
  induction segments generalizing root with
  | nil => simp [resolved]
  | cons first rest ih =>
    have entered : step root first = root ++ [first] := by
      have head := named first mem_cons_self
      simp only [ordinary, Bool.and_eq_true, decide_eq_true_eq] at head
      rw [step, if_neg (by simp [head.1]), if_neg head.2]
    have tail := @ih (step root first)
      fun segment member => named segment (.tail _ member)
    rw [resolved, foldl_cons, ← resolved, tail, entered, append_assoc,
      singleton_append]

/-- The root of the file system is a local root that refuses every key. -/
def Site.refusesKeys : Site → Bool
  | .localDir [] => true
  | .localDir (_ :: _) | .remote => false

/-- The path of an accepted key, below any root but that of the file system. -/
theorem localPath_of_normal {root : Path} {key : Text}
    (accepted : normalizeKey key = .ok normal) :
    (localPath root key).toOption =
      if (Site.localDir root).refusesKeys then none else some (root ++ segmentsOf normal) := by
  obtain ⟨nonempty, named⟩ := segmentsOf_normal accepted
  unfold localPath
  rw [accepted]
  simp only [bind, Except.bind, resolved_ordinary named]
  cases root with
  | nil => simp [inRoot, nonempty, Site.refusesKeys, Except.toOption, throw, throwThe, MonadExceptOf.throw]
  | cons first rest =>
    have below : inRoot (first :: rest) (first :: rest ++ segmentsOf normal) = true := by
      simp [inRoot]
    rw [if_pos below]
    rfl

/-- What is found is found at the normalised key. -/
theorem key_of_head {store : Store} {stat : ObjectStat} (found : store.head key = .ok (some stat)) :
    normalizeKey key = .ok stat.key ∧ store.site.refusesKeys = false := by
  cases store with
  | remote objects =>
    obtain ⟨normal, accepted, made⟩ := bind_eq_ok.mp found
    obtain ⟨file, -, rfl⟩ := Option.map_eq_some_iff.mp (Except.ok.inj made)
    exact ⟨accepted, rfl⟩
  | localDir root system =>
    obtain ⟨path, reached, found⟩ := bind_eq_ok.mp found
    obtain ⟨normal, accepted, found⟩ := bind_eq_ok.mp found
    rw [accepted]
    constructor
    · split at found
      · cases found; rfl
      · split at found
        · cases found; rfl
        · cases found
    · have admitted := @localPath_of_normal normal root key accepted
      cases refusing : (Site.localDir root).refusesKeys with
      | false => exact refusing
      | true => rw [reached, refusing] at admitted; cases admitted

/-- A file system with one file, and these empty folders beside it. -/
def oneFile (path : Path) (file : File) (folders : List Path)
    (apart : ∀ folder ∈ folders, path <+: folder → folder = path) : FileSystem where
  files := [(path, file)]
  directories := folders
  apart := by simpa using apart

variable {site : Site}

/-- Every accepted key is found in some content, unless the site refuses all. -/
theorem exists_head (accepted : normalizeKey key = .ok normal)
    (admits : site.refusesKeys = false) :
    ∃ store : Store, store.site = site ∧ store.head key = .ok (some ⟨normal, 0, none⟩) := by
  cases site with
  | remote =>
    refine ⟨.remote [(normal, ⟨[], none⟩)], rfl, ?_⟩
    rw [Store.head, remoteHead, accepted]
    simp [bind, Except.bind, pure, Except.pure]
  | localDir root =>
    have admitted := @localPath_of_normal normal root key accepted
    rw [admits] at admitted
    have reached : localPath root key = .ok (root ++ segmentsOf normal) := by
      cases reached : localPath root key with
      | error _ => rw [reached] at admitted; cases admitted
      | ok _ => rw [reached] at admitted; exact congrArg Except.ok (Option.some.inj admitted)
    refine ⟨.localDir root (oneFile (root ++ segmentsOf normal) ⟨[], none⟩ [] (by simp)), rfl, ?_⟩
    rw [Store.head, localHead, reached, accepted]
    simp [bind, Except.bind, pure, Except.pure, file, oneFile]

section Object

variable (unquote : Text → Text) (mount : Mount)

/-- An object key as it is put behind the prefix. -/
def cleanedKey (key : Text) : Text := (withSlashes (unquote key)).dropWhile (· = '/')

theorem segmentsOf_backendKey (key : Text) :
    segmentsOf (withSlashes (backendKey unquote mount key)) =
      prefixSegments mount ++ segmentsOf (cleanedKey unquote key) := by
  have free : '\\' ∉ backendKey unquote mount key := by
    intro member
    rcases mem_append.mp member with before | after
    · exact backslash_not_mem_start mount before
    · exact backslash_not_mem_withSlashes _ (dropWhile_subset _ after)
  rw [withSlashes_eq_self free, backendKey, ← closed_prefixSegments mount, segmentsOf,
    splitOn_closed_append (prefixSegments_free mount), segmentsOf, cleanedKey]

/-- An accepted object key starts with the prefix of the mount if the prefix has only
naming segments, and the key has one. -/
theorem start_isPrefix_normal_iff
    (accepted : normalizeKey (backendKey unquote mount key) = .ok normal) :
    start mount <+: normal ↔
      (∀ segment ∈ prefixSegments mount, ordinary segment = true) ∧
        ∃ segment ∈ segmentsOf (cleanedKey unquote key), ordinary segment = true := by
  obtain ⟨-, some, rfl⟩ := normalizeKey_ok_iff.mp accepted
  rw [segmentsOf_backendKey, filter_append] at some ⊢
  have free : ∀ segment ∈ (prefixSegments mount).filter ordinary ++
      (segmentsOf (cleanedKey unquote key)).filter ordinary, '/' ∉ segment := by
    intro segment member
    rcases mem_append.mp member with before | after
    · exact prefixSegments_free mount segment (mem_filter.mp before).1
    · exact not_mem_of_mem_splitOn (mem_filter.mp after).1
  rw [← closed_prefixSegments mount,
    closed_isPrefix_joined_iff (prefixSegments_free mount) free some]
  constructor
  · rintro ⟨rest, more, same⟩
    have naming : ∀ segment ∈ prefixSegments mount, ordinary segment = true := by
      intro segment member
      have listed : segment ∈ (prefixSegments mount).filter ordinary ++
          (segmentsOf (cleanedKey unquote key)).filter ordinary := by
        rw [same]
        exact mem_append_left _ member
      rcases mem_append.mp listed with before | after
      · exact (mem_filter.mp before).2
      · exact (mem_filter.mp after).2
    rw [filter_eq_self.mpr naming, append_cancel_left_eq] at same
    obtain ⟨segment, member⟩ := exists_mem_of_ne_nil _ (same ▸ more)
    exact ⟨naming, segment, mem_filter.mp member⟩
  · rintro ⟨naming, segment, member, names⟩
    refine ⟨_, ne_nil_of_mem (mem_filter.mpr ⟨member, names⟩), ?_⟩
    rw [filter_eq_self.mpr naming]

end Object

/-! ## Listings -/

variable {system : FileSystem} {folder : Path}

theorem localEntry_starts {name : Text} {entry : Entry}
    (made : localEntry system root folder name = some entry) :
    closed '/' folder <+: entry.origin := by
  unfold localEntry at made
  split at made
  · cases made
    rw [closed_append]
    exact prefix_append _ _
  · split at made
    · split at made
      · cases made
      · cases made
        rw [joined_append (cons_ne_nil _ _)]
        exact prefix_append _ _
    · cases made

theorem remoteEntry_starts {folder : Text} {file : File} {entry : Entry} (starts : folder <+: key)
    (made : remoteEntry folder key file = some entry) : folder <+: entry.origin := by
  unfold remoteEntry at made
  dsimp only at made
  split at made
  · cases made
  split at made
  · cases made
    rw [append_assoc]
    exact prefix_append _ _
  · cases made
    exact starts

theorem isPrefix_asFolder (text : Text) : text <+: asFolder text := by
  unfold asFolder
  split
  · exact prefix_append _ _
  · exact prefix_refl _

variable {entries : List Entry}

/-- The entries of a local folder lie below the folder that its path resolves to. -/
theorem localListDir_starts (answered : localListDir root system listed = .ok entries) :
    ∃ segments folder, listedFolder root listed = .ok (segments, folder) ∧
      ∀ entry ∈ entries, closed '/' folder <+: entry.origin := by
  obtain ⟨⟨segments, folder⟩, resolved, answered⟩ := bind_eq_ok.mp answered
  refine ⟨segments, folder, resolved, ?_⟩
  dsimp only at answered
  split at answered
  · cases answered; simp
  · cases answered
    intro entry listed
    obtain ⟨name, -, made⟩ := mem_filterMap.mp listed
    exact localEntry_starts made

/-- A cleaned prefix is what `_reject_traversal` accepts. -/
theorem rejectTraversal_ok {cleaned : Text} (accepted : rejectTraversal listed = .ok cleaned) :
    cleaned = (withSlashes listed).dropWhile (· = '/') := by
  unfold rejectTraversal at accepted
  dsimp only at accepted
  split at accepted
  · cases accepted
  · cases accepted; rfl

theorem remoteListDir_starts {mount : Mount} {objects : Objects}
    (starts : start mount <+: listed) (answered : remoteListDir objects listed = .ok entries) :
    ∀ entry ∈ entries, start mount <+: entry.origin := by
  obtain ⟨cleaned, accepted, answered⟩ := bind_eq_ok.mp answered
  have below : start mount <+: asFolder cleaned := by
    rw [rejectTraversal_ok accepted]
    exact (start_isPrefix_cleaned mount starts).trans (isPrefix_asFolder _)
  cases answered
  intro entry listed
  obtain ⟨object, -, made⟩ := mem_filterMap.mp (mem_dedup.mp listed)
  split at made
  next matching =>
    exact below.trans (remoteEntry_starts (List.isPrefixOf_iff_prefix.mp matching) made)
  · cases made

/-- The keys of a flat listing start with the prefix. -/
theorem list_starts {mount : Mount} {store : Store} {stats : List ObjectStat}
    (starts : start mount <+: listed) (answered : store.list listed = .ok stats) :
    ∀ stat ∈ stats, start mount <+: stat.key := by
  have cleaned := start_isPrefix_cleaned mount starts
  cases store with
  | localDir root system =>
    cases answered
    intro stat listed
    obtain ⟨⟨path, file⟩, -, made⟩ := mem_filterMap.mp listed
    dsimp only at made
    split at made
    next matching =>
      cases made
      simp only [Bool.and_eq_true] at matching
      exact cleaned.trans (List.isPrefixOf_iff_prefix.mp matching.2)
    · cases made
  | remote objects =>
    obtain ⟨begun, accepted, answered⟩ := bind_eq_ok.mp answered
    cases answered
    intro stat listed
    obtain ⟨object, member, rfl⟩ := mem_map.mp listed
    rw [rejectTraversal_ok accepted] at member
    exact cleaned.trans (List.isPrefixOf_iff_prefix.mp (mem_filter.mp member).2)

/-! ## A folder with something in it -/

/-- The folders on the way of a path. -/
def visits : Path → List Text → List Path
  | folder, [] => [folder]
  | folder, segment :: rest => folder :: visits (step folder segment) rest

theorem walk_eq_resolved
    (existing : ∀ visited ∈ visits folder segments, system.isDir visited = true) :
    system.walk folder segments = some (resolved folder segments) := by
  induction segments generalizing folder with
  | nil =>
    rw [walk, if_pos (existing folder (by simp [visits]))]
    rfl
  | cons segment rest ih =>
    rw [walk, if_pos (existing folder (by simp [visits]))]
    exact ih fun visited member => existing visited (.tail _ member)

theorem root_append_folder
    (accepted : listedFolder root listed = .ok (segments, folder)) :
    root ++ folder = resolved root segments := by
  unfold listedFolder at accepted
  dsimp only at accepted
  split at accepted
  next below =>
    cases accepted
    simp only [inRoot, Bool.or_eq_true, Bool.and_eq_true, decide_eq_true_eq,
      isPrefixOf_iff_prefix] at below
    rcases below with same | ⟨-, tail, whole⟩
    · rw [same, drop_length, append_nil]
    · rw [← whole, drop_left]
  · cases accepted

/-- A name that ends with this letter is not internal. -/
theorem internal_eq_false {name : Text} (ended : name.getLast? = some 'a') :
    internal name = false := by
  cases hidden : internal name with
  | false => rfl
  | true =>
    simp only [internal, Bool.or_eq_true, decide_eq_true_eq, isSuffixOf_iff_suffix] at hidden
    rcases hidden with ⟨before, rfl⟩ | rfl
    · have last : ".tmp".toList.getLast? = some 'p' := by decide
      rw [getLast?_append, last] at ended
      exact absurd (Option.some.inj ended) (by decide)
    · exact absurd ended (by decide)

/-- In some file system, the listing of an accepted folder shows a file whose name
starts as it should. -/
theorem exists_listed {leaf : Text}
    (accepted : listedFolder root listed = .ok (segments, folder)) (plain : '/' ∉ leaf) :
    ∃ system name entries, '/' ∉ name ∧ leaf <+: name ∧
      localListDir root system listed = .ok entries ∧
      ⟨name, false, 0, none, closed '/' folder ++ name⟩ ∈ entries := by
  -- A name longer than everything on the way, so that no folder there has it.
  let way := visits root segments
  let name : Text := leaf ++ .replicate (way.flatten.flatten.length + 1) 'a'
  have fresh : ∀ visited ∈ way, name ∉ visited := by
    intro visited member inside
    have bounded := (sublist_flatten_of_mem
      (mem_flatten.mpr ⟨visited, member, inside⟩)).length_le
    simp only [name, length_append, length_replicate] at bounded
    omega
  have ended : name.getLast? = some 'a' := by
    simp [name, getLast?_append, getLast?_replicate]
  have target : root ++ folder ++ [name] = resolved root segments ++ [name] := by
    rw [root_append_folder accepted]
  have apart : ∀ visited ∈ way, ¬ resolved root segments ++ [name] <+: visited :=
    fun visited member starts => fresh visited member (starts.subset (by simp))
  let system := oneFile (resolved root segments ++ [name]) ⟨[], none⟩ way
    fun visited member starts => absurd starts (apart visited member)
  have walked : system.walk root segments = some (resolved root segments) :=
    walk_eq_resolved fun visited member => by
      simp [isDir, system, oneFile, way, member]
  have isFile : system.isDir (root ++ folder ++ [name]) = false := by
    have unlisted : resolved root segments ++ [name] ∉ way :=
      fun member => apart _ member (prefix_refl _)
    simp only [isDir, paths, target, Bool.or_eq_false_iff,
      any_eq_false, system, oneFile, map_cons, map_nil, singleton_append,
      mem_cons]
    refine ⟨⟨by simp, by simpa using unlisted⟩, ?_⟩
    rintro path (rfl | member)
    · simp
    · simp [List.isPrefixOf_iff_prefix, apart path member]
  have found : system.file (root ++ folder ++ [name]) = some ⟨[], none⟩ := by
    simp [file, target, system, oneFile]
  refine ⟨system, name, (system.names (resolved root segments)).filterMap
    (localEntry system root folder), ?_, prefix_append _ _, ?_, ?_⟩
  · intro member
    rcases mem_append.mp member with before | after
    · exact plain before
    · exact absurd (eq_of_mem_replicate after) (by decide)
  · unfold localListDir
    rw [accepted]
    simp only [bind, Except.bind, walked]
    rfl
  · refine mem_filterMap.mpr ⟨name, ?_, ?_⟩
    · refine mem_dedup.mpr (mem_filterMap.mpr
        ⟨resolved root segments ++ [name], mem_cons_self, ?_⟩)
      simp
    · rw [localEntry, isFile, if_neg Bool.false_ne_true, found]
      dsimp only
      rw [internal_eq_false ended, if_neg Bool.false_ne_true,
        joined_append (cons_ne_nil _ _)]
      simp [joined]

/-! ## The guarantee -/

/-- Everything that a response names starts with the prefix of the mount. -/
def Confined (mount : Mount) (response : Response) : Prop :=
  ∀ origin ∈ response.origins, start mount <+: origin

/-- The folder that a folder listing resolves to below a local root starts with the
prefix of the mount. A folder outside of the root is refused. -/
def FolderInside (mount : Mount) (root : Path) (s3Prefix : Text) : Prop :=
  ∀ segments folder,
    listedFolder root (folderPart (listedText mount s3Prefix)) = .ok (segments, folder) →
      start mount <+: closed '/' folder

/-- A listing other than a folder listing of a local backend, or one that is inside. -/
def ListingInside (mount : Mount) (site : Site) (s3Prefix delimiter : Text) : Prop :=
  ∀ root, site = .localDir root → delimiter = ['/'] → FolderInside mount root s3Prefix

/-- The object key is refused, or the prefix has only segments that name something and
the key has one. -/
def ObjectInside (unquote : Text → Text) (mount : Mount) (site : Site) (key : Text) : Prop :=
  start mount = [] ∨ site.refusesKeys = true ∨
    (normalizeKey (backendKey unquote mount key)).toOption = none ∨
    ((∀ segment ∈ prefixSegments mount, ordinary segment = true) ∧
      ∃ segment ∈ segmentsOf (cleanedKey unquote key), ordinary segment = true)

/-- The requests that stay below the prefix. -/
def Inside (unquote : Text → Text) (mount : Mount) (site : Site) : Request → Prop
  | .list s3Prefix delimiter => ListingInside mount site s3Prefix delimiter
  | .head key => ObjectInside unquote mount site key
  | .get key s3Prefix delimiter _ =>
    if key = [] then ListingInside mount site s3Prefix delimiter
    else ObjectInside unquote mount site key

section Guarantee

variable {unquote : Text → Text} {mount : Mount} {store : Store}

variable {s3Prefix : Text}

theorem confined_of_listingInside {delimiter : Text}
    (inside : ListingInside mount store.site s3Prefix delimiter) :
    Confined mount (listObjects mount store s3Prefix delimiter) := by
  unfold listObjects
  dsimp only
  split
  · simp [Confined, origins]
  split
  next folders =>
    have starts : ∀ entry ∈ ((store.listDir (folderPart (listedText mount s3Prefix))).toOption).getD [],
        start mount <+: entry.origin := by
      cases answered : store.listDir (folderPart (listedText mount s3Prefix)) with
      | error _ => exact fun entry listed => absurd listed not_mem_nil
      | ok entries =>
        cases store with
        | localDir root system =>
          obtain ⟨segments, folder, accepted, below⟩ := localListDir_starts answered
          have inFolder := inside root rfl folders segments folder accepted
          exact fun entry listed => inFolder.trans (below entry listed)
        | remote objects =>
          exact remoteListDir_starts (start_isPrefix_folderPart mount s3Prefix) answered
    intro origin named
    simp only [origins, map_map, mem_append, mem_map, mem_filter,
      Function.comp_apply] at named
    rcases named with ⟨entry, listed, rfl⟩ | ⟨entry, listed, rfl⟩
    · exact starts entry listed.1.1
    · exact starts entry listed.1.1
  · split
    · simp [Confined, origins]
    next stats answered =>
      intro origin named
      simp only [origins, map_map, map_nil, append_nil, mem_map,
        Function.comp_apply] at named
      obtain ⟨stat, listed, rfl⟩ := named
      exact list_starts (start_isPrefix_listedText mount s3Prefix) answered stat listed

/-- A key that is inside is found below the prefix, if at all. -/
theorem start_isPrefix_of_head {stat : ObjectStat}
    (inside : ObjectInside unquote mount store.site key)
    (found : store.head (backendKey unquote mount key) = .ok (some stat)) :
    start mount <+: stat.key := by
  obtain ⟨accepted, admits⟩ := key_of_head found
  rcases inside with empty | refusing | refused | named
  · rw [empty]; exact nil_prefix
  · rw [refusing] at admits; cases admits
  · rw [accepted] at refused; cases refused
  · exact (start_isPrefix_normal_iff unquote mount accepted).mpr named

theorem confined_of_inside {request : Request} (inside : Inside unquote mount store.site request) :
    Confined mount (answer unquote mount store request) := by
  cases request with
  | list s3Prefix delimiter => exact confined_of_listingInside inside
  | head key =>
    change Confined mount (headObject unquote mount store key)
    unfold headObject
    split
    · simp [Confined, origins]
    split
    · simp [Confined, origins]
    · simp [Confined, origins]
    next found =>
      simpa [Confined, origins] using start_isPrefix_of_head inside found
  | get key s3Prefix delimiter range =>
    change Confined mount (getObject unquote mount store key s3Prefix delimiter range)
    unfold getObject
    split
    · simp [Confined, origins]
    split
    next whole =>
      rw [Inside, if_pos whole] at inside
      exact confined_of_listingInside inside
    next named =>
      rw [Inside, if_neg named] at inside
      split
      · simp [Confined, origins]
      · simp [Confined, origins]
      next found =>
        have below := start_isPrefix_of_head inside found
        split
        · simpa [Confined, origins] using below
        · simpa [Confined, origins] using below

/-- A folder listing names every entry whose name starts as asked. -/
theorem origin_mem_of_listDir {entry : Entry}
    (plain : mount.format = .plain)
    (answered : store.listDir (folderPart (listedText mount s3Prefix)) = .ok entries)
    (listed : entry ∈ entries) (matching : leafPart (listedText mount s3Prefix) <+: entry.name) :
    entry.origin ∈ (listObjects mount store s3Prefix ['/']).origins := by
  have kept : entry ∈ entries.filter fun entry =>
      (leafPart (listedText mount s3Prefix)).isPrefixOf entry.name :=
    mem_filter.mpr ⟨listed, isPrefixOf_iff_prefix.mpr matching⟩
  simp only [listObjects, plain, ne_eq, not_true, if_false, if_true, answered, Except.toOption,
    Option.getD_some, origins, map_map]
  cases folder : entry.isFolder with
  | true =>
    refine mem_append_right _ (mem_map.mpr ⟨entry, mem_filter.mpr ⟨kept, ?_⟩, rfl⟩)
    exact folder
  | false =>
    refine mem_append_left _ (mem_map.mpr ⟨entry, mem_filter.mpr ⟨kept, ?_⟩, rfl⟩)
    simp [folder]

/-- If every content of the backend is confined, a folder listing is inside. -/
theorem listingInside_of_confined {delimiter : Text}
    (plain : mount.format = .plain)
    (confined : ∀ store : Store, store.site = site →
      Confined mount (listObjects mount store s3Prefix delimiter)) :
    ListingInside mount site s3Prefix delimiter := by
  rintro root rfl rfl segments folder accepted
  have unslashed : '/' ∉ leafPart (listedText mount s3Prefix) := by
    intro member
    simpa using mem_rtakeWhile_imp member
  obtain ⟨system, name, entries, free, matching, answered, listed⟩ :=
    exists_listed accepted unslashed
  have shown := confined (.localDir root system) rfl _
    (origin_mem_of_listDir plain answered listed matching)
  rcases start_cases mount with empty | ⟨text, -, -, -, same⟩
  · rw [empty]; exact nil_prefix
  · rw [same] at shown ⊢
    exact append_isPrefix_of_append free shown

/-- If whatever is found is below the prefix, the key is inside. -/
theorem objectInside_of_found
    (found : ∀ (store : Store) (stat : ObjectStat), store.site = site →
      store.head (backendKey unquote mount key) = .ok (some stat) → start mount <+: stat.key) :
    ObjectInside unquote mount site key := by
  cases refusing : site.refusesKeys with
  | true => exact .inr (.inl refusing)
  | false =>
    cases accepted : normalizeKey (backendKey unquote mount key) with
    | error _ => exact .inr (.inr (.inl (by rw [accepted]; rfl)))
    | ok normal =>
      obtain ⟨store, same, stat⟩ := exists_head accepted refusing
      exact .inr (.inr (.inr ((start_isPrefix_normal_iff unquote mount accepted).mp
        (found store _ same stat))))

theorem inside_of_confined {request : Request} (plain : mount.format = .plain)
    (confined : ∀ store : Store, store.site = site →
      Confined mount (answer unquote mount store request)) :
    Inside unquote mount site request := by
  cases request with
  | list s3Prefix delimiter => exact listingInside_of_confined plain confined
  | head key =>
    refine objectInside_of_found fun store stat same found => ?_
    have shown := confined store same stat.key
    simpa [answer, headObject, plain, found, origins] using shown
  | get key s3Prefix delimiter range =>
    rw [Inside]
    split
    next whole =>
      refine listingInside_of_confined plain fun store same => ?_
      have shown := confined store same
      rwa [answer, getObject, if_neg (by simp [plain]), if_pos whole] at shown
    next named =>
      refine objectInside_of_found fun store stat same found => ?_
      have shown := confined store same stat.key
      rw [answer, getObject, if_neg (by simp [plain]), if_neg named, found] at shown
      dsimp only at shown
      split at shown
      · exact shown (by simp [origins])
      · exact shown (by simp [origins])

end Guarantee

/-- For every mount, every backend and every listing, HEAD or GET request: whatever the
backend holds, only keys that start with the prefix of the mount are named, sized or
returned, exactly when the request stays inside. -/
theorem named_keys_confined_iff (unquote : Text → Text) (mount : Mount) (site : Site)
    (request : Request) :
    (∀ store : Store, store.site = site → Confined mount (answer unquote mount store request)) ↔
      mount.format ≠ .plain ∨ Inside unquote mount site request := by
  constructor
  · intro confined
    by_cases plain : mount.format = .plain
    · exact .inr (inside_of_confined plain confined)
    · exact .inl plain
  · rintro (tokenizing | inside) store rfl
    · -- A mount with a table format answers from virtual objects.
      have elsewhere : answer unquote mount store request = .tokenized := by
        cases request with
        | list => simp [answer, listObjects, tokenizing]
        | head => simp [answer, headObject, tokenizing]
        | get => simp [answer, getObject, tokenizing]
      rw [elsewhere]
      simp [Confined, origins]
    · exact confined_of_inside inside

/-- A local mount of the subtree of one tenant. -/
def tenantMount : Mount where
  bucket := "tenant"
  backend := .localDir
  root := "/srv/share"
  keyPrefix := "tenant/"
  normalised := ⟨"/tenant/", by decide +kernel⟩

/-- The root of the share. -/
def shareRoot : Path := ["srv".toList, "share".toList]

/-- Folder listings of `reports/` in the mounted bucket stay in the tenant's subtree. -/
theorem reports_listing_confined : ∀ store : Store, store.site = .localDir shareRoot →
    Confined tenantMount (answer id tenantMount store (.list "reports/".toList ['/'])) := by
  have evaluated : listedFolder shareRoot (folderPart (listedText tenantMount "reports/".toList)) =
      .ok (["tenant".toList, "reports".toList], ["tenant".toList, "reports".toList]) := by
    decide +kernel
  refine (named_keys_confined_iff id tenantMount (.localDir shareRoot) _).mpr (.inr ?_)
  rintro root same - segments folder accepted
  cases same
  rw [evaluated] at accepted
  cases accepted
  decide +kernel

/-- The folder of the share with a file of another tenant. -/
def sharedSystem : FileSystem where
  files := [(["srv".toList, "share".toList, "other".toList, "secret.csv".toList], ⟨[1, 2, 3], none⟩)]
  directories := [["srv".toList, "share".toList, "tenant".toList]]
  apart := by decide +kernel

/-- The folder listing of `../other/` names the file of the other tenant. -/
theorem listing_leaves_prefix :
    ¬ Confined tenantMount (answer id tenantMount
      (.localDir shareRoot sharedSystem)
      (.list "../other/".toList ['/'])) := by
  intro confined
  have shown := confined "other/secret.csv".toList (by decide +kernel)
  exact absurd shown (by decide +kernel)

end ShortcutProxy.Passthrough
