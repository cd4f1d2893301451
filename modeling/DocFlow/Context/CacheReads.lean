import DocFlow.Context.ResourceQueue
import DocFlow.Lib.Machine

/-!
# Reads of the cache between the writes of others

`SharedCache` is the cache of one chain with any number of reads under way.  A write is one step,
for it is one script or one command; a read is three steps, and other clients write in between.
Nothing looks at the version again after the first of them, so that the list and the hash may come
from other writes (`torn_reads`).  A read whose list and data are still those of its first command
when it takes them answers with what was stored under its version (`cache_reads_atomic`).
-/

namespace DocFlow.Context

inductive CacheWrite
  | refresh (payload : ContextResourceQueueRefresh)
  | replace (resources : List ContextResourceRef) (databaseVersion : Nat)
  | invalidate
deriving DecidableEq, Repr

/-- Where a read stands.  `seen` is the queue at its first command, which the read does not know. -/
inductive CacheRead
  | matched (expectedVersion : Nat) (seen : CachedQueue)
  | listed (expectedVersion : Nat) (seen : CachedQueue) (resourceKeys : List ResourceKey)

structure SharedCache where
  cache : CachedQueue
  /-- what the scripts have stored -/
  stored : List CachedQueue
  reads : Nat → Option CacheRead
  /-- the queues that reads have answered with, each with the version asked for -/
  answers : List (Nat × List ContextResourceRef)

inductive CacheAction
  | write (w : CacheWrite)
  | readVersion (reader expectedVersion : Nat)
  | readList (reader : Nat)
  | readItems (reader : Nat)
  /-- the connection of a read is lost -/
  | abort (reader : Nat)
deriving DecidableEq, Repr

namespace SharedCache

variable (repository : ContextResourceQueueRepository)

def setRead (s : SharedCache) (reader : Nat) (read : Option CacheRead) : SharedCache :=
  { s with reads := Function.update s.reads reader read }

/-- A read comes to its end; a miss answers with no queue. -/
def answer (s : SharedCache) (reader expectedVersion : Nat)
    (items : Option (List ContextResourceRef)) : SharedCache :=
  { s.setRead reader none with
    answers := s.answers ++ (items.map fun items => (expectedVersion, items)).toList }

/-- A script has run. -/
def store (s : SharedCache) (c : CachedQueue) : SharedCache :=
  { s with cache := c, stored := s.stored ++ [c] }

def write (s : SharedCache) : CacheWrite → SharedCache
  | .refresh payload =>
    match repository.refresh payload s.cache with
    | (true, c) => s.store c
    | (false, _) => s
  | .replace resources databaseVersion =>
    s.store (repository.replace resources databaseVersion s.cache)
  | .invalidate => { s with cache := ContextResourceQueueRepository.invalidate s.cache }

def startRead (s : SharedCache) (reader expectedVersion : Nat) : SharedCache :=
  if ContextResourceQueueRepository.readVersion expectedVersion s.cache = true then
    s.setRead reader (some (.matched expectedVersion s.cache))
  else s

def takeList (s : SharedCache) (reader : Nat) : CacheRead → Option SharedCache
  | .matched expectedVersion seen =>
    match repository.readList s.cache with
    | .answer items => some (s.answer reader expectedVersion items)
    | .keys resourceKeys => some (s.setRead reader (some (.listed expectedVersion seen resourceKeys)))
  | .listed _ _ _ => none

def takeItems (s : SharedCache) (reader : Nat) : CacheRead → Option SharedCache
  | .matched _ _ => none
  | .listed expectedVersion _ resourceKeys =>
    some (s.answer reader expectedVersion
      (ContextResourceQueueRepository.readItems resourceKeys s.cache))

def step (s : SharedCache) : CacheAction → Option SharedCache
  | .write w => some (s.write repository w)
  | .readVersion reader expectedVersion =>
    match s.reads reader with
    | none => some (s.startRead reader expectedVersion)
    | some _ => none
  | .readList reader => (s.reads reader).bind (s.takeList repository reader)
  | .readItems reader => (s.reads reader).bind (s.takeItems reader)
  | .abort reader => some (s.setRead reader none)

/-- Nothing is cached and nobody reads. -/
def empty : SharedCache := ⟨.absent, [], fun _ => none, []⟩

def machine : Machine SharedCache CacheAction := ⟨fun s => s = empty, step repository⟩

/-- A queue was stored under the version, and the items are all of it. -/
def Stored (s : SharedCache) (version : Nat) (items : List ContextResourceRef) : Prop :=
  ∃ c ∈ s.stored, c.version = some version ∧ c.Holds items

instance (s : SharedCache) (version : Nat) (items : List ContextResourceRef) :
    Decidable (s.Stored version items) :=
  inferInstanceAs (Decidable (∃ c ∈ s.stored, c.version = some version ∧ c.Holds items))

/-! ## Undisturbed reads -/

/-- The list is as it was when the version matched, or too long. -/
def SameList (c : CachedQueue) : Option CacheRead → Prop
  | some (.matched _ seen) => repository.capacity < c.queue.length ∨ c.queue = seen.queue
  | _ => True

/-- The data of the keys read are as they were when the version matched, or some are missing. -/
def SameItems (c : CachedQueue) : Option CacheRead → Prop
  | some (.listed _ seen resourceKeys) =>
    (∃ key ∈ resourceKeys, c.data key = none) ∨
      ∀ key ∈ resourceKeys, c.data key = seen.data key
  | _ => True

/-- **When a read is right**: what it takes has not changed since its first command. -/
def Undisturbed (s : SharedCache) : CacheAction → Prop
  | .readList reader => SameList repository s.cache (s.reads reader)
  | .readItems reader => SameItems s.cache (s.reads reader)
  | _ => True

instance (c : CachedQueue) : (read : Option CacheRead) → Decidable (SameList repository c read)
  | some (.matched _ seen) =>
    inferInstanceAs (Decidable (repository.capacity < c.queue.length ∨ c.queue = seen.queue))
  | some (.listed _ _ _) => .isTrue trivial
  | none => .isTrue trivial

instance (c : CachedQueue) : (read : Option CacheRead) → Decidable (SameItems c read)
  | some (.listed _ seen resourceKeys) =>
    inferInstanceAs (Decidable ((∃ key ∈ resourceKeys, c.data key = none) ∨
      ∀ key ∈ resourceKeys, c.data key = seen.data key))
  | some (.matched _ _) => .isTrue trivial
  | none => .isTrue trivial

instance (s : SharedCache) : (act : CacheAction) → Decidable (Undisturbed repository s act)
  | .readList reader =>
    inferInstanceAs (Decidable (SameList repository s.cache (s.reads reader)))
  | .readItems reader => inferInstanceAs (Decidable (SameItems s.cache (s.reads reader)))
  | .write _ | .readVersion _ _ | .abort _ => .isTrue trivial

/-! ## The invariant -/

/-- What a read has seen was stored under its version, and the keys it has read are its list. -/
def ReadSound (stored : List CachedQueue) : CacheRead → Prop
  | .matched expectedVersion seen => seen ∈ stored ∧ seen.version = some expectedVersion
  | .listed expectedVersion seen resourceKeys =>
    seen ∈ stored ∧ seen.version = some expectedVersion ∧ resourceKeys = seen.queue

structure Sound (s : SharedCache) : Prop where
  cache : ∀ version, s.cache.version = some version → s.cache ∈ s.stored
  reads : ∀ reader read, s.reads reader = some read → ReadSound s.stored read
  answers : ∀ a ∈ s.answers, s.Stored a.1 a.2

section Steps

variable {repository} {s s' : SharedCache} {reader expectedVersion : Nat}

@[simp] theorem reads_setRead (s : SharedCache) (reader : Nat) (read : Option CacheRead)
    (reader' : Nat) : (s.setRead reader read).reads reader' =
      if reader' = reader then read else s.reads reader' := Function.update_apply ..

theorem ReadSound.mono {stored stored' : List CachedQueue} {read : CacheRead}
    (h : ReadSound stored read) (hsub : stored ⊆ stored') : ReadSound stored' read := by
  cases read with
  | matched expectedVersion seen => exact ⟨hsub h.1, h.2⟩
  | listed expectedVersion seen resourceKeys => exact ⟨hsub h.1, h.2⟩

theorem Sound.empty : Sound SharedCache.empty where
  cache := by
    intro version h
    cases h
  reads := by
    intro reader read h
    cases h
  answers := by
    intro a h
    cases h

theorem Sound.store (hS : Sound s) (c : CachedQueue) : Sound (s.store c) := by
  have hsub : s.stored ⊆ (s.store c).stored := List.subset_append_left _ _
  refine ⟨?_, ?_, ?_⟩
  · intro _ _
    exact List.mem_append_right _ (List.mem_singleton_self c)
  · intro reader read h
    exact (hS.reads reader read h).mono hsub
  · intro a ha
    obtain ⟨c', hc', hstored⟩ := hS.answers a ha
    exact ⟨c', hsub hc', hstored⟩

theorem Sound.setRead (hS : Sound s) {read : Option CacheRead}
    (hread : ∀ r ∈ read, ReadSound s.stored r) : Sound (s.setRead reader read) := by
  refine ⟨hS.cache, ?_, hS.answers⟩
  intro reader' r h
  by_cases hsame : reader' = reader
  · subst hsame
    rw [reads_setRead, if_pos rfl] at h
    exact hread r h
  · rw [reads_setRead, if_neg hsame] at h
    exact hS.reads reader' r h

theorem Sound.answer (hS : Sound s) {items : Option (List ContextResourceRef)}
    (hitems : ∀ is ∈ items, s.Stored expectedVersion is) :
    Sound (s.answer reader expectedVersion items) := by
  have hended : Sound (s.setRead reader none) := hS.setRead (by simp)
  refine ⟨hended.cache, hended.reads, ?_⟩
  intro a ha
  rcases List.mem_append.mp ha with ha | ha
  · exact hS.answers a ha
  · obtain ⟨is, his, rfl⟩ := Option.map_eq_some_iff.mp (Option.mem_toList.mp ha)
    exact hitems is his

theorem Sound.write (hS : Sound s) (w : CacheWrite) : Sound (s.write repository w) := by
  cases w with
  | refresh payload =>
    unfold SharedCache.write ContextResourceQueueRepository.refresh
    dsimp only
    split_ifs
    · exact hS.store _
    · exact hS
  | replace resources databaseVersion => exact hS.store _
  | invalidate =>
    refine ⟨?_, hS.reads, hS.answers⟩
    intro version h
    cases h

theorem Sound.startRead (hS : Sound s) : Sound (s.startRead reader expectedVersion) := by
  unfold SharedCache.startRead
  split
  · next hread =>
    have hversion : s.cache.version = some expectedVersion := of_decide_eq_true hread
    refine hS.setRead ?_
    intro r hr
    obtain rfl := Option.some.inj hr
    exact ⟨hS.cache _ hversion, hversion⟩
  · exact hS

/-- A queue that is stored answers with the data of its keys. -/
theorem stored_of_data {seen : CachedQueue} {items : List ContextResourceRef}
    (hmem : seen ∈ s.stored) (hversion : seen.version = some expectedVersion)
    (hitems : seen.queue.map seen.data = items.map some) : s.Stored expectedVersion items :=
  ⟨seen, hmem, hversion, hitems⟩

theorem Sound.takeList (hS : Sound s) {read : CacheRead} (hread : s.reads reader = some read)
    (hsame : SameList repository s.cache (s.reads reader))
    (h : s.takeList repository reader read = some s') : Sound s' := by
  have hsound := hS.reads reader read hread
  rw [hread] at hsame
  cases read with
  | listed expectedVersion seen resourceKeys => cases h
  | matched expectedVersion seen =>
    obtain ⟨hmem, hversion⟩ := hsound
    unfold SharedCache.takeList ContextResourceQueueRepository.readList at h
    dsimp only at h
    by_cases hempty : s.cache.queue = []
    · rw [if_pos hempty] at h
      obtain rfl := Option.some.inj h
      refine hS.answer ?_
      intro is his
      obtain rfl := Option.some.inj his
      have hseen : seen.queue = [] := by
        rcases hsame with hlong | hsame
        · rw [hempty] at hlong
          cases hlong
        · rw [← hsame, hempty]
      exact stored_of_data hmem hversion (by rw [hseen]; rfl)
    rw [if_neg hempty] at h
    by_cases hlong : repository.capacity < s.cache.queue.length
    · rw [if_pos hlong] at h
      obtain rfl := Option.some.inj h
      exact hS.answer (by simp)
    · rw [if_neg hlong] at h
      obtain rfl := Option.some.inj h
      refine hS.setRead ?_
      intro r hr
      obtain rfl := Option.some.inj hr
      exact ⟨hmem, hversion, hsame.resolve_left hlong⟩

theorem collect_eq_some {keys : List ResourceKey} {values : List (Option ContextResourceRef)}
    {items : List ContextResourceRef}
    (h : ContextResourceQueueRepository.collect keys values = some items) :
    values = items.map some := by
  induction keys generalizing values items with
  | nil =>
    cases values with
    | nil =>
      obtain rfl := Option.some.inj h
      rfl
    | cons value values => cases h
  | cons key keys ih =>
    cases values with
    | nil => cases h
    | cons value values =>
      cases value with
      | none => cases h
      | some item =>
        rw [ContextResourceQueueRepository.collect] at h
        split at h
        · obtain ⟨rest, hrest, rfl⟩ := Option.map_eq_some_iff.mp h
          rw [List.map_cons, ← ih hrest]
        · cases h

theorem Sound.takeItems (hS : Sound s) {read : CacheRead} (hread : s.reads reader = some read)
    (hsame : SameItems s.cache (s.reads reader))
    (h : s.takeItems reader read = some s') : Sound s' := by
  have hsound := hS.reads reader read hread
  rw [hread] at hsame
  cases read with
  | matched expectedVersion seen => cases h
  | listed expectedVersion seen resourceKeys =>
    obtain ⟨hmem, hversion, rfl⟩ := hsound
    obtain rfl := Option.some.inj h
    refine hS.answer ?_
    intro is his
    have hdata : seen.queue.map s.cache.data = is.map some := collect_eq_some his
    rcases hsame with ⟨key, hkey, hnone⟩ | hsame
    · -- a key without data is a miss
      have hmissing : none ∈ seen.queue.map s.cache.data := List.mem_map.mpr ⟨key, hkey, hnone⟩
      rw [hdata] at hmissing
      simp at hmissing
    · refine stored_of_data hmem hversion ?_
      rw [← hdata]
      exact (List.map_congr_left hsame).symm

theorem Sound.step (hS : Sound s) {act : CacheAction} (hok : Undisturbed repository s act)
    (h : SharedCache.step repository s act = some s') : Sound s' := by
  cases act with
  | write w =>
    obtain rfl := Option.some.inj h
    exact hS.write w
  | readVersion reader expectedVersion =>
    unfold SharedCache.step at h
    dsimp only at h
    split at h
    · obtain rfl := Option.some.inj h
      exact hS.startRead
    · cases h
  | readList reader =>
    obtain ⟨read, hread, h⟩ := Option.bind_eq_some_iff.mp h
    exact hS.takeList hread hok h
  | readItems reader =>
    obtain ⟨read, hread, h⟩ := Option.bind_eq_some_iff.mp h
    exact hS.takeItems hread hok h
  | abort reader =>
    obtain rfl := Option.some.inj h
    exact hS.setRead (by simp)

end Steps

/-! ## Runs -/

/-- **Undisturbed reads are atomic**: a queue that a read answers with was stored as a whole under
the version it asked for. -/
theorem cache_reads_atomic (repository : ContextResourceQueueRepository) (s : SharedCache)
    (hs : (machine repository).ReachableVia (Undisturbed repository) s) :
    ∀ a ∈ s.answers, s.Stored a.1 a.2 := by
  have hsound : Sound s := by
    refine Machine.ReachableVia.invariant (P := Sound) ?_ ?_ hs
    · rintro s rfl
      exact Sound.empty
    · intro s act s' _ hS hok hstep
      exact hS.step hok hstep
  exact hsound.answers

def ref (key : ResourceKey) : ContextResourceRef :=
  { resourceKey := key, resourceType := "document", resourceId := key, relation := none,
    summary := none, sourceTurnId := 1, lastSeenAt := 0 }

def pair : ContextResourceQueueRepository := ⟨2, Nat.zero_lt_two⟩

/-- The next version, with another resource. -/
def nextRefresh : ContextResourceQueueRefresh :=
  { conversationId := 1, chainId := 1, resources := [ref "b"], removedResourceKeys := []
    expectedPreviousVersion := 1, databaseVersion := 2 }

/-- A queue is stored and read.  Between the commands of the read others store the same resources under
later versions. -/
def oneRead : List CacheAction :=
  [.write (.replace [ref "a"] 1), .readVersion 0 1,
    .write (.refresh { nextRefresh with resources := [ref "a"] }), .readList 0, .write .invalidate,
    .write (.replace [ref "a"] 3), .readItems 0]

def afterOneRead : SharedCache := ((machine pair).run empty oneRead).getD empty

theorem oneRead_undisturbed :
    (machine pair).RunVia (Undisturbed pair) empty oneRead afterOneRead := .of_runWhile (by rfl)

theorem cache_reads_atomic_oneRead : (1, [ref "a"]) ∈ afterOneRead.answers ∧
    ∀ a ∈ afterOneRead.answers, afterOneRead.Stored a.1 a.2 :=
  ⟨by decide, cache_reads_atomic pair afterOneRead
    (Machine.RunVia.reachableVia (.init rfl) oneRead_undisturbed)⟩

/-! ## Reads that fall apart -/

/-- The keys are deleted before the list is read. -/
def deletedRead : List CacheAction :=
  [.write (.replace [ref "a"] 1), .readVersion 0 1, .write .invalidate, .readList 0]

/-- The next version is stored before the list is read. -/
def overtakenRead : List CacheAction :=
  [.write (.replace [ref "a"] 1), .readVersion 0 1, .write (.refresh nextRefresh), .readList 0,
    .readItems 0]

def afterDeletedRead : SharedCache := ((machine pair).run empty deletedRead).getD empty

def afterOvertakenRead : SharedCache := ((machine pair).run empty overtakenRead).getD empty

/-- **A read answers with what was never stored under its version**: with an empty queue when the
keys go between its commands, and with the next version when that comes between them. -/
theorem torn_reads :
    (∃ s, (machine pair).Reachable s ∧ (1, []) ∈ s.answers ∧ ¬ s.Stored 1 []) ∧
    ∃ s, (machine pair).Reachable s ∧ (1, [ref "a", ref "b"]) ∈ s.answers ∧
      ¬ s.Stored 1 [ref "a", ref "b"] := by
  have hempty : (machine pair).Reachable empty := .init rfl
  constructor
  · have hrun : (machine pair).run empty deletedRead = some afterDeletedRead := by rfl
    exact ⟨_, hempty.run hrun, by decide, by decide⟩
  · have hrun : (machine pair).run empty overtakenRead = some afterOvertakenRead := by rfl
    exact ⟨_, hempty.run hrun, by decide, by decide⟩

end SharedCache

end DocFlow.Context
