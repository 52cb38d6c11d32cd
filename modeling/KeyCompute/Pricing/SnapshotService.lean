import KeyCompute.Cache.Lru
import KeyCompute.Pricing.CacheIdentity

/-!
# Price snapshots through two cache levels

`PricingService::create_snapshot` in any number of processes, each with a local cache and all with
one distributed cache, over the committed price list.  Anything may happen between two awaits, so a
call is a `Phase`, and `Phase.next` is what one await does.

What the environment decides is a parameter of the step (`Reply`).  Nothing rests on the lock.
Expiry and eviction in the distributed cache, and `clear_cache`, remove arbitrary entries.
-/

namespace KeyCompute.Pricing

open Cache (LruCache)

/-- `KeyComputeError`, as far as `create_snapshot` returns it. -/
inductive PricingError where
  | databaseError (message : String)
  deriving DecidableEq

def PricingError.toString : PricingError → String
  | .databaseError message => "database error: " ++ message

/-- An entry of the local cache; `createdAt` is an `Instant` of the process, in nanoseconds. -/
structure CacheEntry where
  snapshot : PricingSnapshot
  createdAt : ℕ

def CacheEntry.isExpired (e : CacheEntry) (ttlSecs instant : ℕ) : Bool :=
  decide (ttlSecs = 0) || decide (ttlSecs < (instant - e.createdAt) / 10 ^ 9)

/-- `PricingService` with a database: the local cache, whether there is a distributed cache, and
the time to live. -/
structure PricingService where
  cache : LruCache String CacheEntry
  distCache : Bool
  cacheTtlSecs : ℕ

def distKey (key : String) : String := "pricing:v3:tenant:" ++ key

/-- `DEFAULT_LOCK_MAX_RETRIES`. -/
def lockMaxRetries : ℕ := 5

/-! ## The phases of a call -/

/-- Where `get_or_insert_with_lock` is before its recomputation. -/
inductive RemoteStage where
  | get
  | marker
  | lock
  | doubleCheck
  | poll (attempt : ℕ)

/-- Who runs `load_from_database_with_source`: `create_snapshot` itself, or the cache service,
which stores the result unless the cache is known to be unavailable. -/
inductive Via where
  | direct
  | uncached
  | cached

/-- Where a call is.  From the second phase on it holds the key it has computed. -/
inductive Phase where
  | revision
  | lookup (key : String)
  | remote (key : String) (stage : RemoteStage)
  | load (key : String) (via : Via)
  | defaults (key : String) (via : Via)
  | publish (key : String) (resolved : SnapshotWithSource)
  | store (key : String) (snapshot : PricingSnapshot)
  | returned (result : Except PricingError PricingSnapshot)
  | dropped

inductive Reply where
  /-- the statement or command is carried out -/
  | done
  | failed (error : String)
  /-- `get_conn` finds no connection -/
  | disconnected
  /-- the cache service runs in its no-op mode -/
  | disabled
  /-- a negative marker is present -/
  | marked
  /-- the recovery gate is blocked -/
  | blocked
  | acquired
  | contended

/-- The effects of one await: the next phase, the process's service, and an entry for the
distributed cache. -/
structure Outcome where
  phase : Phase
  service : PricingService
  written : Option (String × SnapshotWithSource)

def Via.resolved (via : Via) (key : String) (resolved : SnapshotWithSource) : Phase :=
  match via with
  | .cached => .publish key resolved
  | .direct | .uncached => .store key resolved.snapshot

/-- The error of a failed query; the cache service wraps the text of the error. -/
def Via.failure (via : Via) (message : String) : Except PricingError PricingSnapshot :=
  let error := PricingError.databaseError message
  match via with
  | .direct => .error error
  | .uncached | .cached => .error (.databaseError ("Fallback failed: " ++ error.toString))

def PricingService.missed (service : PricingService) (key : String) : Phase :=
  if service.distCache then .remote key .get else .load key .direct

def lookupLocal (service : PricingService) (key : String) (instant : ℕ) : Outcome where
  phase := match (service.cache.get key).1 with
    | some entry =>
      if entry.isExpired service.cacheTtlSecs instant then service.missed key
      else .returned (.ok entry.snapshot)
    | none => service.missed key
  service := { service with cache := (service.cache.get key).2 }
  written := none

/-- A look into the distributed cache, with the phase after a miss. -/
def lookupRemote (cached : String → Option SnapshotWithSource) (key : String) (missed : Phase) :
    Phase :=
  match cached (distKey key) with
  | some resolved => .store key resolved.snapshot
  | none => missed

/-- Where a contended call goes after a fruitless look. -/
def nextPoll (key : String) (attempt : ℕ) : Phase :=
  if attempt + 1 < lockMaxRetries then .remote key (.poll (attempt + 1)) else .load key .cached

/-- One stage of `get_or_insert_with_lock` before the recomputation. -/
def RemoteStage.next (cached : String → Option SnapshotWithSource) (key : String) (reply : Reply) :
    RemoteStage → Phase
  | .get =>
    match reply with
    | .disabled => .load key .uncached
    | .failed _ => .load key .direct
    | .disconnected => .remote key .marker
    | _ => lookupRemote cached key (.remote key .marker)
  | .marker =>
    match reply with
    | .failed _ => .load key .direct
    | .marked => .returned (.error (.databaseError "Entity does not exist (negative cache)"))
    | _ => .remote key .lock
  | .lock =>
    match reply with
    | .blocked => .load key .uncached
    | .acquired => .remote key .doubleCheck
    | .contended => .remote key (.poll 0)
    | _ => .load key .cached
  | .doubleCheck =>
    match reply with
    | .done => lookupRemote cached key (.load key .cached)
    | _ => .load key .cached
  | .poll attempt =>
    match reply with
    | .done => lookupRemote cached key (nextPoll key attempt)
    | _ => nextPoll key attempt

/-- **One await of `create_snapshot`.** -/
def Phase.next (s : PricingState) (cached : String → Option SnapshotWithSource)
    (service : PricingService) (q : PriceQuery) (reply : Reply) (instant : ℕ) : Phase → Outcome
  | .revision =>
    match reply with
    | .failed error => ⟨.returned (.error (.databaseError error)), service, none⟩
    | _ => ⟨.lookup (snapshotKey s.2 s.1 q), service, none⟩
  | .lookup key => lookupLocal service key instant
  | .remote key stage => ⟨stage.next cached key reply, service, none⟩
  | .load key via =>
    match reply with
    | .failed error =>
      ⟨.returned (via.failure ("Failed to load pricing: " ++ error)), service, none⟩
    | _ =>
      match effectiveRow s q with
      | some m => ⟨via.resolved key (resolveEffective m), service, none⟩
      | none => ⟨.defaults key via, service, none⟩
  | .defaults key via =>
    match reply with
    | .failed error =>
      ⟨.returned (via.failure ("Failed to load default pricing: " ++ error)), service, none⟩
    | _ => ⟨via.resolved key (fallback s q), service, none⟩
  | .publish key resolved =>
    -- best effort; a time to live of zero is refused by `SETEX`
    match reply with
    | .done =>
      ⟨.store key resolved.snapshot, service,
        if service.cacheTtlSecs = 0 then none else some (distKey key, resolved)⟩
    | _ => ⟨.store key resolved.snapshot, service, none⟩
  | .store key snapshot =>
    ⟨.returned (.ok snapshot),
      { service with cache := service.cache.put key ⟨snapshot, instant⟩ }, none⟩
  | .returned result => ⟨.returned result, service, none⟩
  | .dropped => ⟨.dropped, service, none⟩

/-! ## Maintenance of the local cache -/

def PricingService.clearExpired (service : PricingService) (instant : ℕ) : PricingService :=
  { service with
    cache := service.cache.retain fun e => !e.2.isExpired service.cacheTtlSecs instant }

/-- The local part of `clear_cache`. -/
def PricingService.clearCache (service : PricingService) : PricingService :=
  { service with cache := service.cache.clear }

/-- The key under which `warmup_cache` stores a platform default. -/
def warmupKey (m : PricingModel) : String :=
  "platform:" ++ m.modelName ++ ":" ++ m.billingDimension.asStr

/-- `warmup_cache`, with the defaults it has read. -/
def PricingService.warmupCache (service : PricingService) (defaults : List PricingModel)
    (instant : ℕ) : PricingService :=
  { service with
    cache := defaults.foldl (fun cache m => cache.put (warmupKey m) ⟨m.snapshot, instant⟩)
      service.cache }

/-! ## The system -/

/-- A call of `create_snapshot` in a process. -/
structure Call where
  service : ℕ
  query : PriceQuery
  phase : Phase

/-- Price list, clock, processes, distributed cache and calls.  Call numbers are not reused. -/
structure System where
  db : PricingDb
  clock : Timestamp
  services : ℕ → PricingService
  cached : String → Option SnapshotWithSource
  calls : ℕ → Option Call

inductive Action where
  /-- a transaction on the price list -/
  | commit (changes : List RowChange)
  | start (call service : ℕ) (modelName : String) (tenantId : Uuid)
      (provider : Option BillingDimension)
  | advance (call : ℕ) (reply : Reply) (instant : ℕ)
  /-- the future of the call is dropped -/
  | drop (call : ℕ)
  /-- expiry, eviction or deletion in the distributed cache -/
  | evict (key : String)
  | clearCache (service : ℕ)
  | clearExpired (service instant : ℕ)
  | warmupCache (service : ℕ) (defaults : List PricingModel) (instant : ℕ)

structure Event where
  elapsed : ℕ
  action : Action

/-- `provider.unwrap_or(DEFAULT_PRICING_PROVIDER)`, with the rest of the query. -/
def resolveQuery (modelName : String) (tenantId : Uuid) (provider : Option BillingDimension) :
    PriceQuery :=
  ⟨tenantId, modelName, provider.getD .providerAccount⟩

namespace System

def state (s : System) : PricingState := (s.db, s.clock)

/-- Empty caches and no calls, over any price list. -/
def initial (db : PricingDb) (clock : Timestamp) (config : ℕ → ℕ × Bool × ℕ) : System where
  db := db
  clock := clock
  services i := ⟨LruCache.empty (config i).1, (config i).2.1, (config i).2.2⟩
  cached _ := none
  calls _ := none

def withService (s : System) (i : ℕ) (service : PricingService) : System :=
  { s with services := Function.update s.services i service }

def advance (s : System) (id : ℕ) (call : Call) (reply : Reply) (instant : ℕ) : System :=
  let outcome := call.phase.next s.state s.cached (s.services call.service) call.query reply instant
  { s with
    services := Function.update s.services call.service outcome.service
    cached := match outcome.written with
      | some (key, resolved) => Function.update s.cached key (some resolved)
      | none => s.cached
    calls := Function.update s.calls id (some { call with phase := outcome.phase }) }

def act (s : System) : Action → System
  | .commit changes => { s with db := (s.db.commit changes).1 }
  | .start id service modelName tenantId provider =>
    match s.calls id with
    | some _ => s
    | none =>
      { s with
        calls := Function.update s.calls id
          (some ⟨service, resolveQuery modelName tenantId provider, .revision⟩) }
  | .advance id reply instant =>
    match s.calls id with
    | some call => s.advance id call reply instant
    | none => s
  | .drop id =>
    match s.calls id with
    | some call =>
      { s with calls := Function.update s.calls id (some { call with phase := .dropped }) }
    | none => s
  | .evict key => { s with cached := Function.update s.cached key none }
  | .clearCache i => s.withService i (s.services i).clearCache
  | .clearExpired i instant => s.withService i ((s.services i).clearExpired instant)
  | .warmupCache i defaults instant =>
    s.withService i ((s.services i).warmupCache defaults instant)

def tick (s : System) (elapsed : ℕ) : System := { s with clock := s.clock + elapsed }

def step (s : System) (e : Event) : System := (s.tick e.elapsed).act e.action

def run (s : System) (events : List Event) : System := events.foldl step s

end System

end KeyCompute.Pricing
