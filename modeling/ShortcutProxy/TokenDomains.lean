import ShortcutProxy.TableConfig

/-!
# The domains of durable tokens

A durable token is the digest of a key, a domain and a normalised value with bars between
them. The policy engine (`deterministic_token`) and the dialects that hash in the database
(`render_projection`) build this text. They trim and lower a value each in their own way.
A bar inside a domain or a value is not escaped.

What is hashed is taken as a text, before an engine encodes it.
-/

namespace ShortcutProxy.TokenDomains

open TableConfig

/-- Whatever makes durable tokens: a policy, or a column that a dialect hashes. -/
inductive Configuration where
  | policy (policyId : String) (domain : Option String) (normalization : Normalization)
  | column (flavor : Flavor) (name : String) (transform : ColumnTransform)

/-- How the engine of a configuration trims a text and lowers its letters. -/
structure Library where
  trim : Configuration → List Char → List Char
  lower : Configuration → List Char → List Char

namespace Configuration

/-- `domain or policy_id`, and `domain or column.name`: an empty domain is none. -/
def domain : Configuration → List Char
  | .policy policyId domain _ => ((domain.filter (· ≠ "")).getD policyId).toList
  | .column _ name transform => ((transform.domain.filter (· ≠ "")).getD name).toList

def normalization : Configuration → Normalization
  | .policy _ _ normalization => normalization
  | .column _ _ transform => transform.normalization

variable (library : Library) (first second : Configuration)

def normalized (value : List Char) : List Char :=
  match first.normalization with
  | .none => value
  | .trim => library.trim first value
  | .trimLower => library.lower first (library.trim first value)

/-- What is hashed for a value. -/
def payload (key value : List Char) : List Char :=
  key ++ '|' :: (first.domain ++ '|' :: first.normalized library value)

/-- Where the second domain goes on after the first one and a bar, no value of the first
configuration makes up for the rest. -/
def Separate : Prop :=
  ∀ rest, second.domain = first.domain ++ '|' :: rest → ∀ value other,
    first.normalized library value ≠ rest ++ '|' :: second.normalized library other

variable {library first second}

/-- Equal texts with a bar each are cut at the same bar, or one goes on where the other
is cut. -/
theorem eq_or_extends {left right rest other : List Char}
    (same : left ++ '|' :: rest = right ++ '|' :: other) :
    (left = right ∧ rest = other) ∨
      (∃ more, right = left ++ '|' :: more ∧ rest = more ++ '|' :: other) ∨
      ∃ more, left = right ++ '|' :: more ∧ other = more ++ '|' :: rest := by
  rcases List.append_eq_append_iff.mp same with ⟨more, longer, tail⟩ | ⟨more, longer, tail⟩
  · cases more with
    | nil => simp_all
    | cons bar more =>
      obtain ⟨rfl, rfl⟩ := List.cons.inj tail
      exact .inr (.inl ⟨more, longer, rfl⟩)
  · cases more with
    | nil => simp_all
    | cons bar more =>
      obtain ⟨rfl, rfl⟩ := List.cons.inj tail
      exact .inr (.inr ⟨more, longer, rfl⟩)

theorem payload_of_extends {rest value other : List Char} (key : List Char)
    (longer : second.domain = first.domain ++ '|' :: rest)
    (tail : first.normalized library value = rest ++ '|' :: second.normalized library other) :
    first.payload library key value = second.payload library key other := by
  simp [payload, longer, tail]

theorem domain_ne_of_extends {rest : List Char}
    (longer : second.domain = first.domain ++ '|' :: rest) : first.domain ≠ second.domain := by
  intro same
  have lengths := congrArg List.length (same.trans longer)
  simp at lengths

/-- Under one key, the payloads of two configurations coincide for equal domains and equal
normalised values only, exactly if neither domain with a bar starts the other one so that
a value can make up for the rest. -/
theorem payloads_separate_iff (library : Library) (key : List Char) (first second : Configuration) :
    (∀ value other, first.payload library key value = second.payload library key other →
        first.domain = second.domain ∧
          first.normalized library value = second.normalized library other) ↔
      first.Separate library second ∧ second.Separate library first := by
  constructor
  · intro apart
    constructor
    · intro rest longer value other tail
      exact domain_ne_of_extends longer (apart value other (payload_of_extends key longer tail)).1
    · intro rest longer value other tail
      exact domain_ne_of_extends longer
        (apart other value (payload_of_extends key longer tail).symm).1.symm
  · rintro ⟨forward, backward⟩ value other same
    rcases eq_or_extends (List.cons.inj (List.append_cancel_left same)).2 with
      equal | ⟨rest, longer, tail⟩ | ⟨rest, longer, tail⟩
    · exact equal
    · exact absurd tail (forward rest longer value other)
    · exact absurd tail (backward rest longer other value)

/-- Two policies of the domains `d` and `d|x` give one payload to different values. -/
theorem payload_of_barred_domain :
    let library : Library := ⟨fun _ text => text, fun _ text => text⟩
    let short := Configuration.policy "p" (some "d") .none
    let long := Configuration.policy "q" (some "d|x") .none
    short.domain ≠ long.domain ∧
      short.payload library ['k'] "x|v".toList = long.payload library ['k'] ['v'] := by
  decide

end Configuration

end ShortcutProxy.TokenDomains
