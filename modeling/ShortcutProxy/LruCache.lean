import Mathlib

/-!
# A cache bounded in size and in time

Entries are kept oldest first. Reading an entry makes it the newest, unless it has
expired, in which case it is dropped. Storing a value drops the oldest entries until
the value fits.

A cache forgets, but it makes nothing up: `Cache.Holds` says of every entry what its
writer said, and each operation keeps it.
-/

namespace ShortcutProxy.LruCache

structure Entry (K V : Type) where
  key : K
  data : V
  expiry : Nat

/-- A cache; its entries stand in the order of their last use. -/
structure Cache (K V : Type) where
  maxBytes : Nat
  ttl : Nat
  entries : List (Entry K V) := []

section Operations

variable {K V : Type}

/-- The bytes that the entries take. -/
def usedBytes (length : V → Nat) (entries : List (Entry K V)) : Nat :=
  (entries.map fun entry => length entry.data).sum

/-- Drop the oldest entries until a value of this length fits. -/
def makeRoom (length : V → Nat) (maxBytes needed : Nat) : List (Entry K V) → List (Entry K V)
  | [] => []
  | oldest :: rest =>
    if usedBytes length (oldest :: rest) + needed ≤ maxBytes then oldest :: rest
    else makeRoom length maxBytes needed rest

namespace Cache

variable [DecidableEq K]

def evict (cache : Cache K V) (key : K) : Cache K V :=
  { cache with entries := cache.entries.filter fun entry => entry.key ≠ key }

def clear (cache : Cache K V) : Cache K V := { cache with entries := [] }

/-- The value under a key, and the cache in which it is the newest entry. -/
def get (cache : Cache K V) (now : Nat) (key : K) : Option V × Cache K V :=
  match cache.entries.find? fun entry => entry.key = key with
  | none => (none, cache)
  | some entry =>
    if entry.expiry < now then (none, cache.evict key)
    else (some entry.data,
      { cache with entries := (cache.evict key).entries ++ [entry] })

/-- Store a value; one that is larger than the whole cache is not stored. -/
def put (length : V → Nat) (cache : Cache K V) (now : Nat) (key : K) (data : V) : Cache K V :=
  if cache.maxBytes < length data then cache
  else
    let kept := makeRoom length cache.maxBytes (length data) (cache.evict key).entries
    { cache with entries := kept ++ [{ key, data, expiry := now + cache.ttl }] }

/-- Every entry is as the predicate says. -/
def Holds (P : K → V → Prop) (cache : Cache K V) : Prop :=
  ∀ entry ∈ cache.entries, P entry.key entry.data

end Cache

end Operations

/-! ## What the operations keep -/

section Laws

variable {K V : Type} {P Q : K → V → Prop} {cache : Cache K V}

theorem mem_of_mem_makeRoom {length : V → Nat} {maxBytes needed : Nat} {entry : Entry K V}
    {entries : List (Entry K V)} (kept : entry ∈ makeRoom length maxBytes needed entries) :
    entry ∈ entries := by
  induction entries with
  | nil => exact kept
  | cons oldest rest ih =>
    unfold makeRoom at kept
    split at kept
    · exact kept
    · exact List.mem_cons_of_mem oldest (ih kept)

namespace Cache

@[simp] theorem holds_clear : cache.clear.Holds P := by
  intro entry stored
  simp [clear] at stored

theorem Holds.imp (holds : cache.Holds P) (weaker : ∀ key data, P key data → Q key data) :
    cache.Holds Q :=
  fun entry stored => weaker entry.key entry.data (holds entry stored)

variable [DecidableEq K]

theorem Holds.evict (holds : cache.Holds P) (key : K) : (cache.evict key).Holds P :=
  fun entry stored => holds entry (List.mem_of_mem_filter stored)

/-- A value that is read was stored under its key. -/
theorem Holds.of_get (holds : cache.Holds P) {now : Nat} {key : K} {data : V}
    (hit : (cache.get now key).1 = some data) : P key data := by
  unfold Cache.get at hit
  split at hit
  · cases hit
  · rename_i entry found
    split at hit
    · cases hit
    · obtain rfl : entry.data = data := by simpa using hit
      have sameKey : entry.key = key := by simpa using List.find?_some found
      exact sameKey ▸ holds entry (List.mem_of_find?_eq_some found)

theorem Holds.get (holds : cache.Holds P) (now : Nat) (key : K) :
    (cache.get now key).2.Holds P := by
  unfold Cache.get
  split
  · exact holds
  · rename_i entry found
    split
    · exact holds.evict key
    · intro other stored
      rcases List.mem_append.mp stored with kept | newest
      · exact holds.evict key other kept
      · obtain rfl : other = entry := by simpa using newest
        exact holds other (List.mem_of_find?_eq_some found)

theorem Holds.put (holds : cache.Holds P) (length : V → Nat) (now : Nat) {key : K} {data : V}
    (stored : P key data) : (cache.put length now key data).Holds P := by
  unfold Cache.put
  split
  · exact holds
  · intro entry member
    rcases List.mem_append.mp member with kept | newest
    · exact holds.evict key entry (mem_of_mem_makeRoom kept)
    · obtain rfl : entry = _ := by simpa using newest
      exact stored

end Cache

end Laws

end ShortcutProxy.LruCache
