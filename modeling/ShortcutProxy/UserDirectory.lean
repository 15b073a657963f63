import ShortcutProxy.JournaledPrograms
import ShortcutProxy.Records

/-!
# The directory of console users

`POST /api/authorization/users` stores a user in place of the one with the same id, and
`DELETE` on a user disables it. `disable` looks for another enabled administrator, the
replacement does not.

A request carries what its handler asks others for: whether the caller may administer
users, and the first failure of the directory file or of the identity provider, if there is
one, with the answer to it.
-/

namespace ShortcutProxy.UserDirectory

open Journaled Records

structure User where
  userId : String
  roles : List String
  enabled : Bool := true
  identitySource : String := "local"
  tenantId : Option String := none
  objectId : Option String := none

/-- The names in `ROLE_PERMISSIONS`. -/
def roleNames : List String :=
  ["viewer", "monitor_troubleshooter", "config_operator", "tokenization_administrator",
    "security_administrator", "user_administrator", "auditor", "system_administrator"]

/-- What Python's texts and UUIDs do, and how a sorted list of names is shown. -/
structure Library where
  strip : String → String
  lower : String → String
  hasSpace : String → Bool
  entraSubjectId : String → String → Except String String
  shown : List String → String

/-- The body of a request to store a user. -/
structure SaveBody extends User where
  password : String := ""
  /-- One of the other names of credentials is a field of the body. -/
  credentials : Bool := false
  /-- The error of a grant, if one is not valid. -/
  badGrant : Option String := none

/-- What fails: loading the directory, the identity provider, or saving the directory. -/
inductive Stage where
  | loading
  | provider
  | saving

abbrev Failure := Option (Stage × Nat × String)

variable (library : Library)

/-- `User.__post_init__`. -/
def User.checked (user : User) : Except String User :=
  let unknown := user.roles.filter (· ∉ roleNames)
  if library.strip user.userId = "" ∨ library.hasSpace user.userId then
    .error "user_id must be non-empty and contain no whitespace"
  else if unknown ≠ [] then .error ("unknown roles: " ++ library.shown unknown)
  else if user.identitySource ∉ ["local", "oidc", "entra"] then
    .error "identity_source must be 'local', 'oidc', or 'entra'"
  else if user.identitySource = "entra" then
    if user.tenantId.getD "" = "" ∨ user.objectId.getD "" = "" then
      .error "Entra users require tenant_id and object_id"
    else match library.entraSubjectId (user.tenantId.getD "") (user.objectId.getD "") with
      | .error error => .error error
      | .ok subject =>
        if user.userId ≠ subject then .error "Entra user_id must match tenant_id and object_id"
        else .ok user
  else if user.tenantId ≠ none ∨ user.objectId ≠ none then
    .error "tenant_id and object_id are only valid for Entra users"
  else .ok user

/-- The user that `save_authorization_user` reads from a body, with `User.from_dict`. -/
def SaveBody.read (body : SaveBody) : Except String User :=
  let source := library.lower (library.strip body.identitySource)
  if source = "local" ∧ body.password = "" then
    .error "password is required for a login-enabled user"
  else if source = "oidc" ∧ body.password ≠ "" then
    .error "OIDC-only users must not have a local password"
  else if body.credentials then .error "user records must not contain credentials or tokens"
  else match body.badGrant with
    | some error => .error error
    | none => User.checked library
        { userId := library.strip body.userId
          roles := body.roles.map library.strip
          enabled := body.enabled
          identitySource := source
          tenantId := (body.tenantId.filter (· ≠ "")).map library.strip
          objectId := (body.objectId.filter (· ≠ "")).map library.strip }

/-- The user that it stores, or the answer to a failure. `hash_password` comes after the
directory is loaded. -/
def SaveBody.accepted (body : SaveBody) (failure : Failure) : Except (Nat × String) User :=
  match body.read library, failure with
  | .error error, _ => .error (400, error)
  | .ok _, some (.loading, answer) => .error answer
  | .ok user, failure =>
    if user.identitySource = "local" ∧ body.password.toList.length < 12 then
      .error (400, "password must be at least 12 characters")
    else match failure with
      | some (_, answer) => .error answer
      | none => .ok user

abbrev Directory := Table String User

def User.administers (user : User) : Bool :=
  user.enabled && user.roles.contains "system_administrator"

/-- `UserDirectory.disable`. -/
def disable (directory : Directory) (userId : String) : Except String Directory :=
  match directory[userId]? with
  | none => .error "user not found"
  | some user =>
    if user.enabled = false then .ok directory
    else if user.roles.contains "system_administrator" ∧
        (listing directory).countP User.administers ≤ 1 then
      .error "cannot disable the last enabled system administrator"
    else .ok (assign directory userId (some { user with enabled := false }))

inductive Request where
  | save (allowed : Bool) (body : SaveBody) (failure : Failure)
  | disable (allowed : Bool) (userId : String) (failure : Failure)

/-- `save_authorization_user` and `disable_authorization_user`: the status, the error and
the stored directory. -/
def handle (directory : Directory) : Request → Nat × String × Directory
  | .save false _ _ | .disable false _ _ => (401, "authentication required", directory)
  | .save true body failure =>
    match body.accepted library failure with
    | .error (status, error) => (status, error, directory)
    | .ok user => (200, "", assign directory user.userId (some user))
  | .disable true userId failure =>
    match failure, disable directory userId with
    | some (.loading, status, error), _ => (status, error, directory)
    | _, .error error => (409, error, directory)
    | some (.saving, status, error), .ok _ => (status, error, directory)
    -- The directory is saved before the identity provider is asked.
    | some (.provider, status, error), .ok next => (status, error, next)
    | none, .ok next => (200, "", next)

def run (directory : Directory) (requests : List Request) : Directory :=
  requests.foldl (fun current request => (handle library current request).2.2) directory

/-- An enabled administrator is stored under another key. -/
def AdministeredBeside (key : String) (directory : Directory) : Prop :=
  ∃ (other : String) (user : User), other ≠ key ∧ directory[other]? = some user ∧
    user.administers = true

def Administered (directory : Directory) : Prop :=
  ∃ (key : String) (user : User), directory[key]? = some user ∧ user.administers = true

/-- The request stores no user in place of the last enabled administrator. -/
def Request.Spares (directory : Directory) : Request → Prop
  | .save true body failure => ∀ user, body.accepted library failure = .ok user →
      user.administers = true ∨ AdministeredBeside user.userId directory
  | _ => True

variable {library} {directory : Directory}

theorem administered_assign_iff {key : String} {user : User} :
    Administered (assign directory key (some user)) ↔
      user.administers = true ∨ AdministeredBeside key directory := by
  constructor
  · rintro ⟨other, found, stored, administers⟩
    rcases of_getElem?_assign stored with ⟨rfl, ⟨⟩⟩ | ⟨different, stored⟩
    · exact .inl administers
    · exact .inr ⟨other, found, different.symm, stored, administers⟩
  · rintro (administers | ⟨other, found, different, stored, administers⟩)
    · exact ⟨key, user, getElem?_assign_self .., administers⟩
    · exact ⟨other, found, (getElem?_assign_of_ne _ _ different.symm).trans stored, administers⟩

/-- Of two enabled administrators one stands under another key. -/
theorem beside_of_count {key : String}
    (several : ¬ (listing directory).countP User.administers ≤ 1) :
    AdministeredBeside key directory := by
  by_contra alone
  apply several
  rw [listing, List.countP_map, List.countP_eq_length_filter]
  have distinct := directory.distinct_keys_toList.filter (User.administers ∘ Prod.snd)
  have same : ∀ entry ∈ directory.toList.filter (User.administers ∘ Prod.snd), entry.1 = key := by
    intro entry member
    obtain ⟨stored, administers⟩ := List.mem_filter.mp member
    rw [Std.ExtTreeMap.mem_toList_iff_getElem?_eq_some] at stored
    by_contra different
    exact alone ⟨entry.1, entry.2, different, stored, administers⟩
  rcases entries : directory.toList.filter (User.administers ∘ Prod.snd) with
    _ | ⟨first, _ | ⟨second, rest⟩⟩
  · simp
  · simp
  · rw [entries] at distinct same
    have equal := (same first (by simp)).trans (same second (by simp)).symm
    simp [equal] at distinct

theorem administered_disable {key : String} {next : Directory} (administered : Administered directory)
    (disabled : disable directory key = .ok next) : Administered next := by
  unfold disable at disabled
  split at disabled
  · cases disabled
  · next user stored =>
    split at disabled
    · cases disabled
      exact administered
    · split at disabled
      · cases disabled
      · next several =>
        cases disabled
        refine administered_assign_iff.mpr (.inr ?_)
        by_cases role : user.roles.contains "system_administrator" = true
        · exact beside_of_count fun few => several ⟨role, few⟩
        · obtain ⟨other, found, held, administers⟩ := administered
          refine ⟨other, found, ?_, held, administers⟩
          rintro rfl
          cases stored.symm.trans held
          exact role (Bool.and_eq_true_iff.mp administers).2

theorem administered_handle_iff (administered : Administered directory) (request : Request) :
    Administered (handle library directory request).2.2 ↔ request.Spares library directory := by
  unfold handle Request.Spares
  split
  · simpa using administered
  · simpa using administered
  · next body failure =>
    cases accepted : body.accepted library failure with
    | error answer => simpa [accepted] using administered
    | ok user => simpa [accepted] using administered_assign_iff
  · next key failure =>
    have disabled := fun next => @administered_disable directory key next administered
    split
    · simpa using administered
    · simpa using administered
    · simpa using administered
    · next disables => simpa using disabled _ disables
    · next disables => simpa using disabled _ disables

/-- An enabled administrator is stored after each request exactly if every accepted user
administers, or leaves another enabled administrator in place. -/
theorem administered_throughout_iff (library : Library) (directory : Directory)
    (administered : Administered directory) (requests : List Request) :
    (∀ earlier later, requests = earlier ++ later → Administered (run library directory earlier)) ↔
      EachStep (fun earlier request => request.Spares library (run library directory earlier))
        requests := by
  constructor
  · intro always earlier request later shape
    refine (administered_handle_iff (always earlier _ shape) request).mp ?_
    simpa [run] using always (earlier ++ [request]) later (by simp [shape])
  · intro spares earlier later shape
    induction earlier using List.reverseRecOn generalizing later with
    | nil => exact administered
    | append_singleton earlier request ih =>
      have before := ih (request :: later) (by simp [shape])
      have next := (administered_handle_iff before request).mpr
        (spares earlier request later (by simp [shape]))
      simpa [run] using next

def plainLibrary : Library := ⟨id, id, fun _ => false, fun _ _ => .error "", fun _ => ""⟩

/-- A directory with one administrator. -/
def rootDirectory : Directory :=
  assign ∅ "root" (some { userId := "root", roles := ["system_administrator"] })

theorem administered_rootDirectory : Administered rootDirectory :=
  administered_assign_iff.mpr (.inl (by decide))

/-- The administrator is stored with another role. -/
def demotion : List Request :=
  [.save true { userId := "root", roles := ["viewer"], password := "twelve-letters" } none]

theorem demotion_loses_administrator :
    Administered rootDirectory ∧ ¬ Administered (run plainLibrary rootDirectory demotion) := by
  refine ⟨administered_rootDirectory, ?_⟩
  have stored : run plainLibrary rootDirectory demotion =
      assign rootDirectory "root" (some { userId := "root", roles := ["viewer"] }) := rfl
  rw [stored, administered_assign_iff]
  rintro (viewer | ⟨other, user, different, held, -⟩)
  · cases viewer
  · rcases of_getElem?_assign held with ⟨same, -⟩ | ⟨-, held⟩
    · exact different same
    · simp at held

theorem administered_throughout_demotion :
    (∀ earlier later, demotion = earlier ++ later →
        Administered (run plainLibrary rootDirectory earlier)) ↔
      EachStep (fun earlier request => request.Spares plainLibrary
        (run plainLibrary rootDirectory earlier)) demotion :=
  administered_throughout_iff plainLibrary rootDirectory administered_rootDirectory demotion

end ShortcutProxy.UserDirectory
