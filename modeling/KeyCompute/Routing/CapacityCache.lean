import KeyCompute.Database.Value
import KeyCompute.Redis.Key
import KeyCompute.Relational.Transaction

/-!
# The capacity cache of the router

`CapacityCache` keeps a snapshot of the load of each account for a short time.  A read takes the
entry of its account, waits for the entry's mutex, and refreshes the snapshot under a semaphore
unless a fresh one is there.  Its steps are what it does between two awaits, and it can be dropped
at each of them, which gives its guards back.

An entry has a reference count: one for the map, one for each read that has it.
-/

namespace KeyCompute.Routing

open Redis (get del)

structure AccountCapacitySnapshot where
  rpm : ℕ
  tpm : ℕ
  inFlight : ℕ
  inFlightLimit : ℕ
  deriving DecidableEq

structure RoutingCapacityConfig where
  candidateLimit : ℕ := 32
  cacheEntries : ℕ := 4096
  ttlMs : ℕ := 100
  concurrency : ℕ := 16
  timeoutMs : ℕ := 1000
  deriving DecidableEq

def RoutingCapacityConfig.validate (config : RoutingCapacityConfig) : Except String Unit :=
  if ¬(4 ≤ config.candidateLimit ∧ config.candidateLimit ≤ 256) ∨
      ¬(config.candidateLimit ≤ config.cacheEntries ∧ config.cacheEntries ≤ 65536) ∨
      config.ttlMs > 1000 ∨ ¬(1 ≤ config.concurrency ∧ config.concurrency ≤ 64) ∨
      ¬(1 ≤ config.timeoutMs ∧ config.timeoutMs ≤ 5000) then
    .error "invalid routing capacity snapshot budgets"
  else .ok ()

/-- An entry: the snapshot with its time, and whether the mutex is held. -/
structure Entry where
  value : Option (ℕ × AccountCapacitySnapshot) := none
  touched : ℕ := 0
  locked : Bool := false
  /-- `Arc::strong_count`. -/
  strong : ℕ := 0

inductive Stage where
  /-- Before the mutex of the entry. -/
  | locking
  /-- With the mutex, before the semaphore. -/
  | acquiring
  /-- The policy is asked. -/
  | refreshing (sampledAt : ℕ)
  | returned (createdAt returnedAt : ℕ) (snapshot : AccountCapacitySnapshot)
  | failed (message : String)
  | cancelled
  deriving DecidableEq

structure Read where
  account : Uuid
  entry : ℕ
  begun : ℕ
  stage : Stage := .locking
  deriving DecidableEq

namespace Read

def live (read : Read) : Bool :=
  match read.stage with
  | .locking | .acquiring | .refreshing _ => true
  | _ => false

def locks (read : Read) : Bool :=
  match read.stage with
  | .acquiring | .refreshing _ => true
  | _ => false

def refreshes (read : Read) : Bool :=
  match read.stage with
  | .refreshing _ => true
  | _ => false

end Read

/-- The cache with the entries it allocated, its reads and the time. -/
structure CapacityCache where
  config : RoutingCapacityConfig
  entries : List (Uuid × ℕ) := []
  heap : ℕ → Entry := fun _ => {}
  allocated : ℕ := 0
  clock : ℕ := 0
  /-- The free permits of the semaphore. -/
  refreshes : ℕ
  reads : List Read := []
  now : ℕ := 0

namespace CapacityCache

def new (config : RoutingCapacityConfig) : Except String CapacityCache :=
  config.validate.map fun _ => { config, refreshes := config.concurrency }

def write (cache : CapacityCache) (e : ℕ) (entry : Entry) : CapacityCache :=
  { cache with heap := Function.update cache.heap e entry }

/-- A new entry for an account, which the map and the read share. -/
def insert (cache : CapacityCache) (id : Uuid) (stamp : ℕ) : CapacityCache :=
  { cache.write cache.allocated { touched := stamp, strong := 2 } with
    entries := cache.entries ++ [(id, cache.allocated)],
    allocated := cache.allocated + 1 }

/-- The least recently touched entry that no read has. -/
def evictable (cache : CapacityCache) : Option (Uuid × ℕ) :=
  (cache.entries.filter fun e => (cache.heap e.2).strong = 1).argmin fun e =>
    (cache.heap e.2).touched

def remove (cache : CapacityCache) (old : Uuid × ℕ) : CapacityCache :=
  let entry := cache.heap old.2
  { cache.write old.2 { entry with strong := entry.strong - 1 } with
    entries := del old.1 cache.entries }

def entry (cache : CapacityCache) (id : Uuid) : Except String ℕ × CapacityCache :=
  let stamp := cache.clock
  let cache := { cache with clock := cache.clock + 1 }
  match get id cache.entries with
  | some e =>
    let found := cache.heap e
    (.ok e, cache.write e { found with touched := stamp, strong := found.strong + 1 })
  | none =>
    if cache.entries.length = cache.config.cacheEntries then
      match cache.evictable with
      | some old => (.ok cache.allocated, (cache.remove old).insert id stamp)
      | none => (.error "routing snapshot cache is busy", cache)
    else (.ok cache.allocated, cache.insert id stamp)

def goes (cache : CapacityCache) (i : ℕ) (read : Read) (stage : Stage) : CapacityCache :=
  { cache with reads := cache.reads.set i { read with stage } }

def close (cache : CapacityCache) (i : ℕ) (read : Read) (stage : Stage) : CapacityCache :=
  let entry := cache.heap read.entry
  { (cache.write read.entry
      { entry with
        locked := entry.locked && !read.locks,
        strong := entry.strong - 1 }).goes i read stage with
    refreshes := cache.refreshes + read.refreshes.toNat }

def fresh? (cache : CapacityCache) (e : ℕ) : Option (ℕ × AccountCapacitySnapshot) :=
  (cache.heap e).value.filter fun value => cache.now - value.1 < cache.config.ttlMs

/-- A step of some read, or of the clock. -/
inductive Event where
  | read (id : Uuid)
  | lock (i : ℕ)
  | acquire (i : ℕ)
  | complete (i : ℕ) (result : Except String AccountCapacitySnapshot)
  | expire (i : ℕ)
  | cancel (i : ℕ)
  | tick (ms : ℕ)

def begin (cache : CapacityCache) (id : Uuid) : CapacityCache :=
  match cache.entry id with
  | (.ok e, cache) =>
    { cache with reads := cache.reads ++ [{ account := id, entry := e, begun := cache.now }] }
  | (.error message, cache) =>
    { cache with
      reads := cache.reads ++
        [{ account := id, entry := 0, begun := cache.now, stage := .failed message }] }

/-- The read has the mutex: a fresh snapshot is returned, a stale one is dropped. -/
def look (cache : CapacityCache) (i : ℕ) (read : Read) : CapacityCache :=
  match cache.fresh? read.entry with
  | some (created, snapshot) => cache.close i read (.returned created cache.now snapshot)
  | none =>
    let entry := cache.heap read.entry
    (cache.write read.entry { entry with value := none, locked := true }).goes i read .acquiring

def answer (cache : CapacityCache) (i : ℕ) (read : Read) (sampledAt : ℕ) :
    Except String AccountCapacitySnapshot → CapacityCache
  | .ok snapshot =>
    let entry := cache.heap read.entry
    (cache.write read.entry { entry with value := some (sampledAt, snapshot) }).close i read
      (.returned sampledAt cache.now snapshot)
  | .error message => cache.close i read (.failed message)

/-- A step; steps that a read is not waiting for do not happen. -/
def step (event : Event) (cache : CapacityCache) : CapacityCache :=
  match event with
  | .read id => cache.begin id
  | .lock i =>
    match cache.reads[i]? with
    | some read =>
      if read.stage = .locking ∧ (cache.heap read.entry).locked = false then cache.look i read
      else cache
    | none => cache
  | .acquire i =>
    match cache.reads[i]? with
    | some read =>
      if read.stage = .acquiring ∧ 0 < cache.refreshes then
        { cache.goes i read (.refreshing cache.now) with refreshes := cache.refreshes - 1 }
      else cache
    | none => cache
  | .complete i result =>
    match cache.reads[i]? with
    | some read =>
      match read.stage with
      | .refreshing sampledAt => cache.answer i read sampledAt result
      | _ => cache
    | none => cache
  | .expire i =>
    match cache.reads[i]? with
    | some read =>
      if read.live then cache.close i read (.failed "routing snapshot deadline exceeded")
      else cache
    | none => cache
  | .cancel i =>
    match cache.reads[i]? with
    | some read => if read.live then cache.close i read .cancelled else cache
    | none => cache
  | .tick ms => { cache with now := cache.now + ms }

def run (events : List Event) (cache : CapacityCache) : CapacityCache :=
  Relational.runAll step events cache

end CapacityCache

end KeyCompute.Routing
