import Std.Data.HashMap

/-!
# Cached values

A tracker counts the changes of one thing. A cache keeps values under keys, each with the trackers
that it depends on; an entry is current as long as all of these have the counts that they had when
the entry was stored. An entry that is no longer current stays until it is replaced.

* `Cache.lookup?` finds the current value of a kind under a key; `lookup?_store` and `lookup?_touch`
  say what it finds after a value is stored and after a change is counted.
* `cached` looks a value up, or else computes and stores it. The computation may use the cache of
  its own state. It runs before the counts of its trackers are read.
-/

namespace PklAnalysis

/-- Names a tracker. -/
abbrev TrackerId := Nat

/-- The counts of all trackers. -/
structure Trackers where
  counts : Array Nat := #[]
  deriving Repr, Inhabited

namespace Trackers

def count (t : Trackers) (i : TrackerId) : Nat := t.counts.getD i 0

/-- The name of the tracker that is added next. -/
def next (t : Trackers) : TrackerId := t.counts.size

/-- Add a tracker that has counted nothing. -/
def add (t : Trackers) : Trackers := ⟨t.counts.push 0⟩

/-- Count a change. -/
def increment (t : Trackers) (i : TrackerId) : Trackers := ⟨t.counts.modify i (· + 1)⟩

theorem count_add (t : Trackers) (i : TrackerId) : t.add.count i = t.count i := by
  simp only [count, add, Array.getD_eq_getD_getElem?, Array.getElem?_push]
  split
  · subst i; simp
  · rfl

theorem count_increment (t : Trackers) (i j : TrackerId) (h : i < t.next) :
    (t.increment i).count j = if i = j then t.count j + 1 else t.count j := by
  simp only [count, increment, next, Array.getD_eq_getD_getElem?, Array.getElem?_modify] at h ⊢
  split
  · subst j; simp [h]
  · rfl

end Trackers

/-- A stored value, and the trackers that it depends on with the counts they had. -/
structure CacheEntry (ν : Type) where
  value : ν
  dependencies : List (TrackerId × Nat)
  deriving Repr

namespace CacheEntry

variable {ν : Type}

def isCurrent (e : CacheEntry ν) (t : Trackers) : Bool :=
  e.dependencies.all fun (i, n) => t.count i == n

end CacheEntry

/-- One kind of the values that a cache holds. -/
structure ValueKind (ν α : Type) where
  wrap : α → ν
  unwrap : ν → Option α
  unwrap_wrap : ∀ a, unwrap (wrap a) = some a := by intros; rfl

structure Cache (ν : Type) where
  trackers : Trackers := {}
  entries : Std.HashMap String (CacheEntry ν) := {}
  /-- How many lookups found a value. -/
  hits : Nat := 0
  /-- How many lookups found none. -/
  misses : Nat := 0

namespace Cache

variable {ν α : Type}

instance : Inhabited (Cache ν) := ⟨{}⟩

/-- The entry under a key, if it is current. -/
def current? (c : Cache ν) (key : String) : Option (CacheEntry ν) :=
  c.entries[key]?.filter (·.isCurrent c.trackers)

/-- Whether the entry under a key is current, whatever the kind of its value. -/
def holdsCurrent (c : Cache ν) (key : String) : Bool := (c.current? key).isSome

/-- The current value of a kind under a key. -/
def lookup? (c : Cache ν) (kind : ValueKind ν α) (key : String) : Option α :=
  (c.current? key).bind fun e => kind.unwrap e.value

/-- Store a value with the present counts of the trackers that it depends on. -/
def store (c : Cache ν) (key : String) (value : ν) (dependencies : List TrackerId) : Cache ν :=
  let entry := ⟨value, dependencies.map fun i => (i, c.trackers.count i)⟩
  { c with entries := c.entries.insert key entry }

def erase (c : Cache ν) (key : String) : Cache ν := { c with entries := c.entries.erase key }

/-- Drop all entries. The trackers and the counts of lookups stay. -/
def clear (c : Cache ν) : Cache ν := { c with entries := {} }

theorem lookup?_store (c : Cache ν) (kind : ValueKind ν α) (key : String) (a : α)
    (dependencies : List TrackerId) :
    (c.store key (kind.wrap a) dependencies).lookup? kind key = some a := by
  simp [lookup?, current?, store, CacheEntry.isCurrent, kind.unwrap_wrap, Option.filter]

/-- How many entries there are, current or not. -/
def size (c : Cache ν) : Nat := c.entries.size

def countHit (c : Cache ν) : Cache ν := { c with hits := c.hits + 1 }

def countMiss (c : Cache ν) : Cache ν := { c with misses := c.misses + 1 }

/-- Count a change on a tracker. -/
def touch (c : Cache ν) (i : TrackerId) : Cache ν := { c with trackers := c.trackers.increment i }

/-- An entry that depends on a tracker is no longer current once a change is counted on it. -/
theorem lookup?_touch {c : Cache ν} {kind : ValueKind ν α} {key : String} {i : TrackerId} {n : Nat}
    {e : CacheEntry ν} (h : i < c.trackers.next) (hk : c.entries[key]? = some e)
    (hi : (i, n) ∈ e.dependencies) (hn : n ≤ c.trackers.count i) :
    (c.touch i).lookup? kind key = none := by
  have stale : e.isCurrent (c.trackers.increment i) = false := by
    refine List.all_eq_false.2 ⟨(i, n), hi, ?_⟩
    simp only [Trackers.count_increment _ _ _ h, beq_iff_eq, if_true]
    omega
  simp [lookup?, current?, touch, hk, stale, Option.filter]

/-- Add a tracker; its name is `c.trackers.next`. -/
def addTracker (c : Cache ν) : Cache ν := { c with trackers := c.trackers.add }

end Cache

/-- A state that a cache is part of. -/
class HasCache (σ : Type) (ν : outParam Type) where
  cache : σ → Cache ν
  withCache : σ → Cache ν → σ
  cache_withCache : ∀ s c, cache (withCache s c) = c := by intros; rfl

instance {ν : Type} : HasCache (Cache ν) ν where
  cache c := c
  withCache _ c := c

/-- Change the cache of the state. -/
def modifyCache {σ ν : Type} [HasCache σ ν] (f : Cache ν → Cache ν) : StateM σ Unit :=
  modify fun s => HasCache.withCache s (f (HasCache.cache s))

/-- Look a value up, or compute it together with the trackers that it depends on, and store it. What
gives no value is not stored. -/
def cached {σ ν α : Type} [HasCache σ ν] (kind : ValueKind ν α) (key : String)
    (compute : StateM σ (Option (α × List TrackerId))) : StateM σ (Option α) := do
  match (HasCache.cache (← get)).lookup? kind key with
  | some a =>
    modifyCache Cache.countHit
    pure (some a)
  | none =>
    modifyCache Cache.countMiss
    match ← compute with
    | none => pure none
    | some (a, dependencies) =>
      modifyCache (·.store key (kind.wrap a) dependencies)
      pure (some a)

end PklAnalysis
