import PklAnalysis.Proofs.Workspace.Entries

/-!
# The age of cached values

A `CacheUse` is what a computation does with a cache: it counts changes, drops entries and looks
values up, and what it gives for a missing value may itself use the cache. `CacheUse.run` runs it
with the cache of the analysis (`cached`) and keeps a log of what happened.

A lookup that is answered from an entry finds what was stored last under its key, and no change was
counted on a tracker of the entry since the computation that stored it returned
(`CacheUse.unchanged_since_returned`). A computation that returns nothing stores nothing: what one
inside it has stored under the same key stays. Changes that were counted while a computation ran do
not make its value stale, since the counts are read when the value is stored
(`CacheUse.changed_since_began`).
-/

namespace PklAnalysis

/-- What is stored: a value with the present counts of the trackers that it depends on. -/
def CacheEntry.now {ν : Type} (t : Trackers) (value : ν) (dependencies : List TrackerId) : CacheEntry ν :=
  ⟨value, dependencies.map fun i => (i, t.count i)⟩

theorem CacheEntry.isCurrent_now {ν : Type} {t : Trackers} {value : ν} {dependencies : List TrackerId} :
    (CacheEntry.now t value dependencies).isCurrent t = true :=
  CacheEntry.isCurrent_iff.2 (List.forall_mem_map.2 fun _ _ => rfl)

/-- What happens to a cache, as far as the age of its values is concerned. -/
inductive CacheEvent (ν : Type) where
  | changed (i : TrackerId)
  /-- A lookup found nothing, and its computation began. -/
  | began (key : String)
  /-- What a computation returned was stored. It had begun when there were `start` events. -/
  | stored (key : String) (start : Nat) (e : CacheEntry ν)
  /-- A lookup was answered from an entry. -/
  | found (key : String) (e : CacheEntry ν)

/-- A cache and what happened to it, with the latest event first. -/
structure Recorded (ν : Type) where
  cache : Cache ν := {}
  log : List (CacheEvent ν) := []

instance {ν : Type} : HasCache (Recorded ν) ν where
  cache := Recorded.cache
  withCache s c := { s with cache := c }

namespace Recorded

variable {ν α : Type}

def record (s : Recorded ν) (event : CacheEvent ν) : Recorded ν := { s with log := event :: s.log }

/-- Count a change. A tracker that does not exist counts none. -/
def touch (i : TrackerId) : StateM (Recorded ν) Unit :=
  modify fun s =>
    if i < s.cache.trackers.next then { s with cache := s.cache.touch i }.record (.changed i) else s

/-- Note whether a lookup that began at `start` found an entry or stored one. A computation always
adds to the log. -/
def noteEntry (key : String) (start : Nat) (gave : Bool) (s : Recorded ν) : Recorded ν :=
  match s.cache.entries[key]? with
  | none => s
  | some e =>
    if s.log.length = start then s.record (.found key e)
    else if gave then s.record (.stored key start e)
    else s

/-- Look a value up in the cache, or else compute and store it. -/
def lookUp (kind : ValueKind ν α) (key : String)
    (compute : StateM (Recorded ν) (Option (α × List TrackerId))) : StateM (Recorded ν) (Option α) := do
  let start := (← get).log.length
  let a ← cached kind key (do modify (·.record (.began key)); compute)
  modify (noteEntry key start a.isSome)
  pure a

end Recorded

/-- What a computation does with a cache until it has a result. -/
inductive CacheUse (ν : Type) : Type → Type 1
  | done {β : Type} (b : β) : CacheUse ν β
  | read {β : Type} (next : Cache ν → CacheUse ν β) : CacheUse ν β
  | touch {β : Type} (i : TrackerId) (next : CacheUse ν β) : CacheUse ν β
  | addTracker {β : Type} (next : CacheUse ν β) : CacheUse ν β
  | erase {β : Type} (key : String) (next : CacheUse ν β) : CacheUse ν β
  | clear {β : Type} (next : CacheUse ν β) : CacheUse ν β
  | lookUp {α β : Type} (kind : ValueKind ν α) (key : String)
      (compute : CacheUse ν (Option (α × List TrackerId))) (next : Option α → CacheUse ν β) :
      CacheUse ν β

namespace CacheUse

variable {ν : Type}

def run {β : Type} : CacheUse ν β → StateM (Recorded ν) β
  | done b => pure b
  | read next => do (next (← get).cache).run
  | touch i next => do Recorded.touch i; next.run
  | addTracker next => do modifyCache Cache.addTracker; next.run
  | erase key next => do modifyCache (·.erase key); next.run
  | clear next => do modifyCache Cache.clear; next.run
  | lookUp kind key compute next => do (next (← Recorded.lookUp kind key compute.run)).run

end CacheUse

/-! ## What was stored last under a key -/

section

variable {ν α β : Type} {log : List (CacheEvent ν)} {t t' : Trackers} {key : String} {e : CacheEntry ν}
  {s : Recorded ν}

/-- `e` is what was stored last under `key`: its computation began after `older` and took `during`,
and `since` has happened since it returned. -/
structure Latest (log : List (CacheEvent ν)) (key : String) (e : CacheEntry ν)
    (since during older : List (CacheEvent ν)) : Prop where
  log_eq : log = since ++ .stored key older.length e :: (during ++ .began key :: older)
  last : ∀ start e', .stored key start e' ∉ since

/-- The entry is what was stored last under the key, and counts that are still those of the entry
have not changed since. -/
def Recent (log : List (CacheEvent ν)) (t : Trackers) (key : String) (e : CacheEntry ν) : Prop :=
  ∃ since during older, Latest log key e since during older ∧ ∀ p ∈ e.dependencies,
    p.2 ≤ t.count p.1 ∧ (t.count p.1 = p.2 → .changed p.1 ∉ since)

/-- What a lookup found is what was stored last under the key, and no change was counted on a
tracker of it since. -/
def Unchanged (log : List (CacheEvent ν)) (key : String) (e : CacheEntry ν) : Prop :=
  ∃ since during older, Latest log key e since during older ∧ ∀ i ∈ e.trackers, .changed i ∉ since

theorem Recent.cons {x : CacheEvent ν} (h : Recent log t key e) (hx : ∀ start e', x ≠ .stored key start e')
    (ht : ∀ i, t.count i ≤ t'.count i) (hc : ∀ i, x = .changed i → t.count i < t'.count i) :
    Recent (x :: log) t' key e := by
  obtain ⟨since, during, older, latest, hd⟩ := h
  refine ⟨x :: since, during, older, ⟨congrArg (x :: ·) latest.log_eq, ?_⟩, fun p hp => ?_⟩
  · intro start e' hmem
    rcases List.mem_cons.1 hmem with rfl | hmem
    · exact hx start e' rfl
    · exact latest.last start e' hmem
  · obtain ⟨hle, hs⟩ := hd p hp
    refine ⟨Nat.le_trans hle (ht p.1), fun hcount hmem => ?_⟩
    rcases List.mem_cons.1 hmem with rfl | hmem
    · have := hc p.1 rfl
      omega
    · exact hs (by have := ht p.1; omega) hmem

theorem Recent.unchanged (h : Recent log t key e) (hc : e.isCurrent t = true) : Unchanged log key e := by
  obtain ⟨since, during, older, latest, hd⟩ := h
  refine ⟨since, during, older, latest, fun i hi => ?_⟩
  obtain ⟨p, hp, rfl⟩ := List.mem_map.1 hi
  exact (hd p hp).2 (CacheEntry.isCurrent_iff.1 hc p hp)

theorem Unchanged.cons (x : CacheEvent ν)
    (h : ∀ {later key e earlier}, log = later ++ .found key e :: earlier → Unchanged earlier key e)
    (hx : ∀ key e, x = .found key e → Unchanged log key e) {later earlier : List (CacheEvent ν)}
    (heq : x :: log = later ++ .found key e :: earlier) : Unchanged earlier key e := by
  cases later with
  | nil =>
    cases heq
    exact hx key e rfl
  | cons y later => exact h (List.cons.inj heq).2

namespace Recorded

/-- Every entry is recent, and so was whatever a lookup found. -/
structure Sound (s : Recorded ν) : Prop where
  recent : ∀ {key e}, s.cache.entries[key]? = some e → Recent s.log s.cache.trackers key e
  unchanged : ∀ {later key e earlier}, s.log = later ++ .found key e :: earlier →
    Unchanged earlier key e

theorem sound_empty : Sound ({} : Recorded ν) where
  recent h := by
    rw [show ({} : Recorded ν).cache.entries = {} from rfl, Std.HashMap.getElem?_empty] at h
    cases h
  unchanged h := absurd h (List.append_ne_nil_of_right_ne_nil _ (List.cons_ne_nil _ _)).symm

/-- Entries may be dropped, and what is not an entry or a count may change. -/
theorem Sound.withCache {c : Cache ν} (h : s.Sound)
    (he : ∀ {key : String} {e : CacheEntry ν}, c.entries[key]? = some e →
      s.cache.entries[key]? = some e)
    (ht : ∀ i, c.trackers.count i = s.cache.trackers.count i) : Sound { s with cache := c } where
  recent hk := by
    obtain ⟨since, during, older, latest, hd⟩ := h.recent (he hk)
    refine ⟨since, during, older, latest, fun p hp => ?_⟩
    rw [ht]
    exact hd p hp
  unchanged := h.unchanged

theorem Sound.began (h : s.Sound) (key : String) : (s.record (.began key)).Sound where
  recent hk := (h.recent hk).cons nofun (fun _ => Nat.le_refl _) nofun
  unchanged := Unchanged.cons (.began key) h.unchanged nofun

theorem Sound.found (h : s.Sound) (hk : s.cache.current? key = some e) :
    (s.record (.found key e)).Sound where
  recent hk := (h.recent hk).cons nofun (fun _ => Nat.le_refl _) nofun
  unchanged := by
    obtain ⟨hk, hc⟩ := Cache.current?_eq_some_iff.1 hk
    refine Unchanged.cons (.found key e) h.unchanged fun key e heq => ?_
    cases heq
    exact (h.recent hk).unchanged hc

theorem Sound.touch (h : s.Sound) {i : TrackerId} (hi : i < s.cache.trackers.next) :
    ({ s with cache := s.cache.touch i }.record (.changed i)).Sound where
  recent hk := by
    have count (j : TrackerId) := Trackers.count_increment s.cache.trackers i j hi
    refine (h.recent hk).cons nofun (fun j => ?_) (fun j hj => ?_)
    · show _ ≤ (s.cache.trackers.increment i).count j
      rw [count]
      split <;> omega
    · cases hj
      show _ < (s.cache.trackers.increment i).count i
      rw [count, if_pos rfl]
      omega
  unchanged := Unchanged.cons (.changed i) h.unchanged nofun

/-- What a computation returned is stored with the counts at that moment. -/
theorem Sound.stored (h : s.Sound) {older : List (CacheEvent ν)} (value : ν)
    (dependencies : List TrackerId) (hlog : .began key :: older <:+ s.log) :
    ({ s with cache := s.cache.store key value dependencies }.record
      (.stored key older.length (.now s.cache.trackers value dependencies))).Sound := by
  refine ⟨fun {k e'} hk => ?_, Unchanged.cons (.stored key _ _) h.unchanged nofun⟩
  have hk : (s.cache.store key value dependencies).entries[k]? = some e' := hk
  by_cases hkk : key = k
  · subst hkk
    have he : (s.cache.store key value dependencies).entries[key]? =
        some (.now s.cache.trackers value dependencies) := Std.HashMap.getElem?_insert_self
    cases he.symm.trans hk
    obtain ⟨during, hl⟩ := hlog
    refine ⟨[], during, older, ⟨congrArg (_ :: ·) hl.symm, nofun⟩, fun p hp => ⟨?_, nofun⟩⟩
    obtain ⟨i, _, rfl⟩ := List.mem_map.1 hp
    exact Nat.le_refl _
  · have hs : s.cache.entries[k]? = some e' := by
      have hi : (s.cache.store key value dependencies).entries[k]? = _ := Std.HashMap.getElem?_insert
      rwa [hi, if_neg (by simpa using hkk)] at hk
    refine (h.recent hs).cons (fun start e heq => ?_) (fun _ => Nat.le_refl _) nofun
    cases heq
    exact hkk rfl

end Recorded

/-! ## Runs -/

theorem Cache.of_getElem?_erase {c : Cache ν} {k : String} (h : (c.erase k).entries[key]? = some e) :
    c.entries[key]? = some e := by
  have he : (c.erase k).entries[key]? = _ := Std.HashMap.getElem?_erase
  rw [he] at h
  split at h
  · cases h
  · exact h

/-- A computation keeps a sound record sound and only adds to the log. -/
def Recorded.Keeps (x : StateM (Recorded ν) β) : Prop :=
  ∀ s, s.Sound → (x s).2.Sound ∧ s.log <:+ (x s).2.log

namespace Recorded

theorem Keeps.bind {x : StateM (Recorded ν) α} {f : α → StateM (Recorded ν) β} (hx : Keeps x)
    (hf : ∀ a, Keeps (f a)) : Keeps (x >>= f) := by
  intro s h
  obtain ⟨h, hl⟩ := hx s h
  obtain ⟨h, hl'⟩ := hf _ _ h
  exact ⟨h, hl.trans hl'⟩

theorem keeps_modifyCache {f : Cache ν → Cache ν}
    (he : ∀ {c : Cache ν} {key : String} {e : CacheEntry ν}, (f c).entries[key]? = some e →
      c.entries[key]? = some e)
    (ht : ∀ c i, (f c).trackers.count i = c.trackers.count i) :
    Keeps (modifyCache f : StateM (Recorded ν) Unit) :=
  fun _ h => ⟨h.withCache he (ht _), List.suffix_refl _⟩

theorem keeps_touch (i : TrackerId) : Keeps (touch i : StateM (Recorded ν) Unit) := by
  intro s h
  show (if _ then _ else _ : Recorded ν).Sound ∧ _ <:+ (if _ then _ else _ : Recorded ν).log
  split
  · next hi => exact ⟨h.touch hi, List.suffix_cons _ _⟩
  · exact ⟨h, List.suffix_refl _⟩

theorem run_lookUp {kind : ValueKind ν α} {compute : StateM (Recorded ν) (Option (α × List TrackerId))}
    {r : Option α} {s' : Recorded ν}
    (h : cached kind key (do modify (·.record (.began key)); compute) s = (r, s')) :
    lookUp kind key compute s = (r, noteEntry key s.log.length r.isSome s') :=
  congrArg (fun x : Option α × Recorded ν => (x.1, noteEntry key s.log.length x.1.isSome x.2)) h

variable (s) in
/-- An answer from an entry leaves the log as it is but for the entry that was found. -/
theorem lookUp_of_current {kind : ValueKind ν α} {compute : StateM (Recorded ν) (Option (α × List TrackerId))}
    {a : α} (hk : s.cache.current? key = some e) (ha : kind.unwrap e.value = some a) :
    lookUp kind key compute s =
      (some a, { s with cache := s.cache.countHit }.record (.found key e)) := by
  have hl : (HasCache.cache s).lookup? kind key = some a := (Cache.lookup?_of_current hk).trans ha
  have he : s.cache.countHit.entries[key]? = some e := (Cache.current?_eq_some_iff.1 hk).1
  rw [run_lookUp (cached_of_hit hl)]
  show (some a, noteEntry key s.log.length true { s with cache := s.cache.countHit }) = _
  unfold noteEntry
  rw [he]
  exact congrArg (some a, ·) (if_pos rfl)

section

variable {kind : ValueKind ν α} {compute : StateM (Recorded ν) (Option (α × List TrackerId))}
  {s' : Recorded ν}

theorem length_ne {log : List (CacheEvent ν)} (h : .began key :: log <:+ s'.log) :
    s'.log.length ≠ log.length :=
  Nat.ne_of_gt (Nat.lt_of_succ_le h.length_le)

/-- Where an entry is missing and none is computed, the state is that after the computation. -/
theorem lookUp_of_none (hl : s.cache.lookup? kind key = none)
    (hc : compute ({ s with cache := s.cache.countMiss }.record (.began key)) = (none, s'))
    (hlog : .began key :: s.log <:+ s'.log) : lookUp kind key compute s = (none, s') := by
  have hc : (do modify (·.record (.began key)); compute : StateM (Recorded ν) _)
      (HasCache.withCache s (HasCache.cache s).countMiss) = (none, s') := hc
  rw [run_lookUp (cached_of_none hl hc)]
  unfold noteEntry
  split
  · rfl
  · rw [if_neg (length_ne hlog)]
    rfl

variable (s compute) in
/-- What is computed is stored in the state after the computation. -/
theorem lookUp_of_some {a : α} {ds : List TrackerId} (hl : s.cache.lookup? kind key = none)
    (hc : compute ({ s with cache := s.cache.countMiss }.record (.began key)) = (some (a, ds), s'))
    (hlog : .began key :: s.log <:+ s'.log) :
    lookUp kind key compute s = (some a,
      { s' with cache := s'.cache.store key (kind.wrap a) ds }.record
        (.stored key s.log.length (.now s'.cache.trackers (kind.wrap a) ds))) := by
  have hc : (do modify (·.record (.began key)); compute : StateM (Recorded ν) _)
      (HasCache.withCache s (HasCache.cache s).countMiss) = (some (a, ds), s') := hc
  have he : (s'.cache.store key (kind.wrap a) ds).entries[key]? =
      some (.now s'.cache.trackers (kind.wrap a) ds) := Std.HashMap.getElem?_insert_self
  rw [run_lookUp (cached_of_some hl hc)]
  show (some a, noteEntry key s.log.length true
    { s' with cache := s'.cache.store key (kind.wrap a) ds }) = _
  unfold noteEntry
  rw [he]
  exact congrArg (some a, ·) ((if_neg (length_ne hlog)).trans (if_pos rfl))

theorem Keeps.lookUp (hc : Keeps compute) : Keeps (lookUp kind key compute) := by
  intro s h
  cases hl : s.cache.lookup? kind key with
  | some a =>
    obtain ⟨e, hk, ha⟩ := Option.bind_eq_some_iff.1 hl
    rw [lookUp_of_current s hk ha]
    have hhit : ({ s with cache := s.cache.countHit } : Recorded ν).Sound := h.withCache id fun _ => rfl
    exact ⟨hhit.found hk, List.suffix_cons _ _⟩
  | none =>
    have hmiss : ({ s with cache := s.cache.countMiss } : Recorded ν).Sound := h.withCache id fun _ => rfl
    obtain ⟨hs, hlog⟩ := hc _ (hmiss.began key)
    cases hr : compute ({ s with cache := s.cache.countMiss }.record (.began key)) with
    | mk r s' =>
    rw [hr] at hs hlog
    cases r with
    | none =>
      rw [lookUp_of_none hl hr hlog]
      exact ⟨hs, (List.suffix_cons _ _).trans hlog⟩
    | some r =>
      rw [lookUp_of_some _ _ hl hr hlog]
      have hgrown : s.log <:+ s'.log := (List.suffix_cons _ _).trans hlog
      exact ⟨hs.stored _ _ hlog, hgrown.trans (List.suffix_cons _ _)⟩

end

end Recorded

namespace CacheUse

theorem run_lookUp {kind : ValueKind ν α} {compute : CacheUse ν (Option (α × List TrackerId))}
    {next : Option α → CacheUse ν β} {a : Option α} {s' : Recorded ν}
    (h : Recorded.lookUp kind key compute.run s = (a, s')) :
    (lookUp kind key compute next).run s = (next a).run s' :=
  congrArg (fun x : Option α × Recorded ν => (next x.1).run x.2) h

theorem keeps_run (p : CacheUse ν β) : Recorded.Keeps p.run := by
  induction p with
  | done b => exact fun s h => ⟨h, List.suffix_refl _⟩
  | read next ih => exact fun s h => ih s.cache s h
  | touch i next ih => exact (Recorded.keeps_touch i).bind fun _ => ih
  | addTracker next ih =>
    have hk : Recorded.Keeps (modifyCache Cache.addTracker : StateM (Recorded ν) Unit) :=
      Recorded.keeps_modifyCache id fun c => Trackers.count_add c.trackers
    exact hk.bind fun _ => ih
  | erase key next ih =>
    have hk : Recorded.Keeps (modifyCache (·.erase key) : StateM (Recorded ν) Unit) :=
      Recorded.keeps_modifyCache (fun {c} _ _ h => Cache.of_getElem?_erase h) fun _ _ => rfl
    exact hk.bind fun _ => ih
  | clear next ih =>
    have hk : Recorded.Keeps (modifyCache Cache.clear : StateM (Recorded ν) Unit) :=
      Recorded.keeps_modifyCache (fun h => by cases Std.HashMap.getElem?_empty.symm.trans h)
        fun _ _ => rfl
    exact hk.bind fun _ => ih
  | lookUp kind key compute next ihc ih => exact ihc.lookUp.bind ih

/-- Whatever a computation does with a cache that was empty at first: when a lookup is answered from
an entry, then that is what was stored last under its key, and no change was counted on a tracker of
the entry since the computation that stored it returned. -/
theorem unchanged_since_returned (p : CacheUse ν β) {later earlier : List (CacheEvent ν)}
    (h : (p.run {}).2.log = later ++ .found key e :: earlier) : Unchanged earlier key e :=
  (p.keeps_run {} Recorded.sound_empty).1.unchanged h

end CacheUse

end

/-! ## A computation that changes what it depends on -/

namespace CacheUse

def plain : ValueKind Int Int := ⟨id, some, fun _ => rfl⟩

/-- Counts a change on the tracker that it names. -/
def touching : CacheUse Int (Option (Int × List TrackerId)) := .touch 0 (.done (some (7, [0])))

/-- Looks a value up that is computed by `touching`, and then again. -/
def twice : CacheUse Int (Option Int) :=
  .addTracker <| .lookUp plain "key" touching fun _ => .lookUp plain "key" (.done none) .done

/-- What is stored depends on the tracker with the change counted. -/
def twiceEntry : CacheEntry Int := .now (({} : Trackers).add.increment 0) 7 [0]

def twiceLog : List (CacheEvent Int) := [.stored "key" 0 twiceEntry, .changed 0, .began "key"]

theorem log_twice : (twice.run {}).2.log = .found "key" twiceEntry :: twiceLog := by
  let c : Cache Int := ({} : Cache Int).addTracker
  have missing : c.lookup? plain "key" = none :=
    Cache.lookup?_of_not_current (congrArg (Option.filter _) Std.HashMap.getElem?_empty)
  have computed : touching.run (({ cache := c.countMiss } : Recorded Int).record (.began "key")) =
      (some (7, [0]), ⟨c.countMiss.touch 0, [.changed 0, .began "key"]⟩) := rfl
  let d : Recorded Int := ⟨(c.countMiss.touch 0).store "key" 7 [0], twiceLog⟩
  have first : Recorded.lookUp plain "key" touching.run { cache := c } = (some 7, d) :=
    Recorded.lookUp_of_some { cache := c } touching.run missing computed ⟨[.changed 0], rfl⟩
  have current : d.cache.current? "key" = some twiceEntry :=
    Cache.current?_eq_some_iff.2 ⟨Std.HashMap.getElem?_insert_self, CacheEntry.isCurrent_now⟩
  have again : Recorded.lookUp plain "key" (run (.done none)) d =
      (some 7, { d with cache := d.cache.countHit }.record (.found "key" twiceEntry)) :=
    Recorded.lookUp_of_current d current rfl
  have steps : twice.run {} = (some 7, { d with cache := d.cache.countHit }.record (.found "key" twiceEntry)) :=
    calc twice.run {}
      _ = run (.lookUp plain "key" touching fun _ => .lookUp plain "key" (.done none) .done)
          { cache := c } := rfl
      _ = run (.lookUp plain "key" (.done none) .done) d := run_lookUp first
      _ = _ := run_lookUp again
  rw [steps]
  rfl

theorem unchanged_since_returned_twice :
    (twice.run {}).2.log = [] ++ .found "key" twiceEntry :: twiceLog ∧
      Unchanged twiceLog "key" twiceEntry :=
  have h : (twice.run {}).2.log = [] ++ .found "key" twiceEntry :: twiceLog := log_twice
  ⟨h, unchanged_since_returned twice h⟩

/-- A change that is counted while a value is computed does not make it stale. -/
theorem changed_since_began : ¬ ∀ (p : CacheUse Int (Option Int)) (key : String) (e : CacheEntry Int)
    (later earlier : List (CacheEvent Int)), (p.run {}).2.log = later ++ .found key e :: earlier →
    ∃ since during older, Latest earlier key e since during older ∧
      ∀ i ∈ e.trackers, .changed i ∉ since ∧ .changed i ∉ during := by
  intro h
  obtain ⟨since, during, older, ⟨heq, _⟩, hc⟩ := h twice "key" twiceEntry []
    twiceLog log_twice
  obtain ⟨hs, hd⟩ := hc 0 (by decide)
  have hmem : (.changed 0 : CacheEvent Int) ∈ older := by
    have hall : (.changed 0 : CacheEvent Int) ∈
        since ++ .stored "key" older.length twiceEntry :: (during ++ .began "key" :: older) :=
      heq ▸ by simp [twiceLog]
    simpa [hs, hd] using hall
  -- the entry is stored before anything else is, and `older` had happened before its computation
  have hstored : (.stored "key" older.length twiceEntry : CacheEvent Int) ∈ twiceLog := heq ▸ by simp
  have hlen : older.length = 0 := by simpa [twiceLog] using hstored
  rw [List.eq_nil_of_length_eq_zero hlen] at hmem
  cases hmem

end CacheUse

end PklAnalysis
