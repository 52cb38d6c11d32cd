import KeyCompute.Pricing.SnapshotService

/-!
# No stale price

`System.Sound` says of every entry of both cache levels, and of everything a call has in hand, that
it agrees with the price list in the sense of `Cache.Versioning`.  Every event keeps this
(`step_sound`), because a transaction or the clock can only leave a key, never come back to one.

A call during which no visible row is changed and no boundary is crossed keeps the key it has
computed as the current one (`Tracks`); what it returns is then the price of that state
(`snapshot_never_stale`), whoever stored it.
-/

namespace KeyCompute.Pricing

open Pricing.System Function

open Cache (LruCache Versioning)

/-- The price `load_from_database_with_source` computes at a state. -/
def price (s : PricingState) (q : PriceQuery) : PricingSnapshot := (load s q).snapshot

theorem stable_price : versioning.Stable price := stable_load.map SnapshotWithSource.snapshot

variable {q : PriceQuery} {s : PricingState} {cached : String → Option SnapshotWithSource}

theorem agrees_price {k : String} {r : SnapshotWithSource} (h : versioning.Agrees load s k r) :
    versioning.Agrees price s k r.snapshot :=
  h.map SnapshotWithSource.snapshot

def Held (s : PricingState) (q : PriceQuery) (k : String) : Prop :=
  versioning.Issued s k ∧ versioning.Names k q

def PhaseOk (s : PricingState) (q : PriceQuery) : Phase → Prop
  | .lookup key | .remote key _ | .load key _ => Held s q key
  | .defaults key _ => Held s q key ∧ versioning.Agrees effectiveRow s key none
  | .publish key resolved => Held s q key ∧ versioning.Agrees load s key resolved
  | .store key snapshot => Held s q key ∧ versioning.Agrees price s key snapshot
  | .revision | .returned _ | .dropped => True

/-- The keys that `create_snapshot` uses. -/
def IsKey (k : String) : Prop := ∃ i : CacheIdentity, k = i.text

/-- A local cache agrees with the price list.  It may also hold entries of `warmup_cache`, which
no call looks up. -/
def CacheOk (s : PricingState) (cache : LruCache String CacheEntry) : Prop :=
  ∀ e ∈ cache.entries, IsKey e.1 → versioning.Agrees price s e.1 e.2.snapshot

def RemoteOk (s : PricingState) (cached : String → Option SnapshotWithSource) : Prop :=
  ∀ k r, cached (distKey k) = some r → versioning.Agrees load s k r

structure System.Sound (s : System) : Prop where
  localOk : ∀ i, CacheOk s.state (s.services i).cache
  remoteOk : RemoteOk s.state s.cached
  callsOk : ∀ id call, s.calls id = some call → PhaseOk s.state call.query call.phase

theorem System.initial_sound (db : PricingDb) (clock : Timestamp) (config : ℕ → ℕ × Bool × ℕ) :
    (initial db clock config).Sound where
  localOk _ _ h := absurd h List.not_mem_nil
  remoteOk _ _ h := absurd h (by simp [initial])
  callsOk _ _ h := absurd h (by simp [initial])

/-! ## Moves of the price list and the clock -/

section Move

variable {s s' : PricingState} (hmove : Moves s s')
include hmove

theorem Held.move {q : PriceQuery} {k : String} (h : Held s q k) : Held s' q k :=
  ⟨versioning.issued_move hmove h.1, h.2⟩

theorem PhaseOk.move {q : PriceQuery} {phase : Phase} (h : PhaseOk s q phase) :
    PhaseOk s' q phase := by
  cases phase with
  | lookup | remote | load => exact Held.move hmove h
  | defaults key via => exact ⟨Held.move hmove h.1, h.2.move stable_effective hmove⟩
  | publish key resolved => exact ⟨Held.move hmove h.1, h.2.move stable_load hmove⟩
  | store key snapshot => exact ⟨Held.move hmove h.1, h.2.move stable_price hmove⟩
  | revision | returned | dropped => trivial

theorem CacheOk.move {cache : LruCache String CacheEntry} (h : CacheOk s cache) :
    CacheOk s' cache :=
  fun e he hkey => (h e he hkey).move stable_price hmove

theorem RemoteOk.move {cached : String → Option SnapshotWithSource} (h : RemoteOk s cached) :
    RemoteOk s' cached :=
  fun k r hr => (h k r hr).move stable_load hmove

end Move

theorem System.Sound.move {s s' : System} (h : s.Sound) (hmove : Moves s.state s'.state)
    (hservices : s'.services = s.services) (hcached : s'.cached = s.cached)
    (hcalls : s'.calls = s.calls) : s'.Sound where
  localOk i := by
    rw [hservices]
    exact (h.localOk i).move hmove
  remoteOk := by
    rw [hcached]
    exact h.remoteOk.move hmove
  callsOk id call hcall := by
    rw [hcalls] at hcall
    exact (h.callsOk id call hcall).move hmove

/-! ## One await -/

theorem Held.isKey {k : String} (h : Held s q k) : IsKey k := by
  obtain ⟨i, hi, -⟩ := h.1
  exact ⟨i, hi⟩

theorem distKey_injective : Injective distKey :=
  fun _ _ h => (String.append_right_inj _).mp h

structure OutcomeOk (s : PricingState) (q : PriceQuery) (o : Outcome) : Prop where
  phase : PhaseOk s q o.phase
  cache : CacheOk s o.service.cache
  written : ∀ key resolved, o.written = some (key, resolved) →
    ∃ k, key = distKey k ∧ versioning.Agrees load s k resolved

theorem OutcomeOk.quiet {phase : Phase} {service : PricingService} (hphase : PhaseOk s q phase)
    (hcache : CacheOk s service.cache) :
    OutcomeOk s q ⟨phase, service, none⟩ :=
  ⟨hphase, hcache, fun _ _ h => absurd h (by simp)⟩

section Await

variable {s : PricingState} {q : PriceQuery} {key : String}

theorem CacheOk.put {cache : LruCache String CacheEntry} {entry : CacheEntry}
    (h : CacheOk s cache) (hentry : IsKey key → versioning.Agrees price s key entry.snapshot) :
    CacheOk s (cache.put key entry) := by
  intro e he hkey
  obtain rfl | he := LruCache.mem_put he
  · exact hentry hkey
  · exact h e he hkey

theorem PricingService.missed_ok (service : PricingService) (hheld : Held s q key) :
    PhaseOk s q (service.missed key) := by
  unfold PricingService.missed
  split <;> exact hheld

theorem lookupLocal_ok {service : PricingService} (instant : ℕ) (hcache : CacheOk s service.cache)
    (hheld : Held s q key) : OutcomeOk s q (lookupLocal service key instant) := by
  apply OutcomeOk.quiet
  · cases (service.cache.get key).1 with
    | none => exact service.missed_ok hheld
    | some entry =>
      simp only
      split
      · exact service.missed_ok hheld
      · trivial
  · exact fun e he hkey => hcache e (LruCache.mem_get he) hkey

variable {cached : String → Option SnapshotWithSource}

theorem lookupRemote_ok {missed : Phase} (hcached : RemoteOk s cached) (hheld : Held s q key)
    (hmissed : PhaseOk s q missed) :
    PhaseOk s q (lookupRemote cached key missed) := by
  unfold lookupRemote
  cases hfound : cached (distKey key) with
  | none => exact hmissed
  | some resolved => exact ⟨hheld, agrees_price (hcached key resolved hfound)⟩

theorem RemoteStage.next_ok {reply : Reply} {stage : RemoteStage} (hcached : RemoteOk s cached)
    (hheld : Held s q key) :
    PhaseOk s q (stage.next cached key reply) := by
  cases stage with
  | get => cases reply <;> first | exact hheld | exact lookupRemote_ok hcached hheld hheld
  | marker => cases reply <;> first | exact hheld | trivial
  | lock => cases reply <;> exact hheld
  | doubleCheck => cases reply <;> first | exact hheld | exact lookupRemote_ok hcached hheld hheld
  | poll attempt =>
    have hmissed : PhaseOk s q (nextPoll key attempt) := by
      unfold nextPoll
      split <;> exact hheld
    cases reply <;> first | exact hmissed | exact lookupRemote_ok hcached hheld hmissed

theorem Via.resolved_ok (via : Via) {resolved : SnapshotWithSource} (hheld : Held s q key)
    (hagrees : versioning.Agrees load s key resolved) :
    PhaseOk s q (via.resolved key resolved) := by
  cases via with
  | cached => exact ⟨hheld, hagrees⟩
  | direct | uncached => exact ⟨hheld, agrees_price hagrees⟩

/-- A price loaded now agrees with the price list, whenever its key was taken. -/
theorem agrees_load (hheld : Held s q key) : versioning.Agrees load s key (load s q) :=
  Versioning.agrees_observe hheld.1 hheld.2

/-- The two queries may see different states; the second completes the price if the key is still
the current one. -/
theorem agrees_fallback (hheld : Held s q key)
    (hnone : versioning.Agrees effectiveRow s key none) :
    versioning.Agrees load s key (fallback s q) := by
  refine ⟨hheld.1, fun q' hq' => ?_⟩
  obtain rfl := hheld.2.eq hq'
  rw [load_of_none (hnone.2 q' hq').symm]

theorem Phase.next_ok {phase : Phase} {service : PricingService} (reply : Reply) (instant : ℕ)
    (hcached : RemoteOk s cached) (hcache : CacheOk s service.cache) (hphase : PhaseOk s q phase) :
    OutcomeOk s q (phase.next s cached service q reply instant) := by
  cases phase with
  | revision =>
    have hheld : Held s q (snapshotKey s.2 s.1 q) :=
      ⟨versioning.issued_key s q, s, rfl⟩
    cases reply <;> first | exact .quiet hheld hcache | exact .quiet trivial hcache
  | lookup key => exact lookupLocal_ok instant hcache hphase
  | remote key stage => exact .quiet (RemoteStage.next_ok hcached hphase) hcache
  | load key via =>
    have hheld : Held s q key := hphase
    cases hrow : effectiveRow s q with
    | some m =>
      have hresolved : PhaseOk s q (via.resolved key (resolveEffective m)) := by
        rw [← load_of_effectiveRow hrow]
        exact via.resolved_ok hheld (agrees_load hheld)
      cases reply <;> simp only [Phase.next, hrow] <;>
        first | exact .quiet hresolved hcache | exact .quiet trivial hcache
    | none =>
      have hdefaults : PhaseOk s q (.defaults key via) :=
        ⟨hheld, hrow ▸ Versioning.agrees_observe hheld.1 hheld.2⟩
      cases reply <;> simp only [Phase.next, hrow] <;>
        first | exact .quiet hdefaults hcache | exact .quiet trivial hcache
  | defaults key via =>
    have hresolved := via.resolved_ok hphase.1 (agrees_fallback hphase.1 hphase.2)
    cases reply <;> first | exact .quiet hresolved hcache | exact .quiet trivial hcache
  | publish key resolved =>
    have hstore : PhaseOk s q (.store key resolved.snapshot) :=
      ⟨hphase.1, agrees_price hphase.2⟩
    cases reply with
    | done =>
      refine ⟨hstore, hcache, fun k r hw => ?_⟩
      simp only [Phase.next] at hw
      split at hw
      · exact absurd hw (by simp)
      · obtain ⟨rfl, rfl⟩ := Prod.mk.inj (Option.some.inj hw)
        exact ⟨key, rfl, hphase.2⟩
    | _ => exact .quiet hstore hcache
  | store key snapshot =>
    exact ⟨trivial, hcache.put fun _ => hphase.2, fun _ _ h => absurd h (by simp [Phase.next])⟩
  | returned | dropped => exact .quiet trivial hcache

end Await

/-! ## Every event keeps the invariant -/

namespace System

variable {s : System}

theorem Sound.withService (h : s.Sound) {i : ℕ} {service : PricingService}
    (hservice : CacheOk s.state service.cache) : (s.withService i service).Sound where
  localOk j := by
    change CacheOk s.state (update s.services i service j).cache
    by_cases hj : j = i
    · rw [hj, update_self]
      exact hservice
    · rw [update_of_ne hj]
      exact h.localOk j
  remoteOk := h.remoteOk
  callsOk := h.callsOk

theorem Sound.withCall (h : s.Sound) (id : ℕ) (call : Call)
    (hcall : PhaseOk s.state call.query call.phase) :
    ({ s with calls := update s.calls id (some call) } : System).Sound where
  localOk := h.localOk
  remoteOk := h.remoteOk
  callsOk j call' hcall' := by
    change update s.calls id (some call) j = some call' at hcall'
    by_cases hj : j = id
    · rw [hj, update_self] at hcall'
      obtain rfl := Option.some.inj hcall'
      exact hcall
    · rw [update_of_ne hj] at hcall'
      exact h.callsOk j call' hcall'

theorem Sound.withCached (h : s.Sound) {cached : String → Option SnapshotWithSource}
    (hcached : RemoteOk s.state cached) :
    ({ s with cached := cached } : System).Sound where
  localOk := h.localOk
  remoteOk := hcached
  callsOk := h.callsOk

theorem advance_sound (h : s.Sound) {id : ℕ} {call : Call} (hcall : s.calls id = some call)
    (reply : Reply) (instant : ℕ) :
    (s.advance id call reply instant).Sound := by
  have hok := Phase.next_ok reply instant h.remoteOk (h.localOk call.service)
    (h.callsOk id call hcall)
  have hcached : RemoteOk s.state (s.advance id call reply instant).cached := by
    simp only [advance]
    cases hw : (call.phase.next s.state s.cached (s.services call.service) call.query reply
        instant).written with
    | none => exact h.remoteOk
    | some w =>
      obtain ⟨key, resolved⟩ := w
      obtain ⟨k, rfl, hagrees⟩ := hok.written key resolved hw
      intro k' r hr
      change update s.cached (distKey k) (some resolved) (distKey k') = some r at hr
      by_cases heq : k' = k
      · grind [update_self, Sound]
      · rw [update_of_ne fun hdist => heq (distKey_injective hdist)] at hr
        exact h.remoteOk k' r hr
  exact ((h.withService (i := call.service) hok.cache).withCall id { call with phase := _ }
    hok.phase).withCached hcached

theorem warmupCache_ok {s : PricingState} {service : PricingService}
    (h : CacheOk s service.cache) (defaults : List PricingModel) (instant : ℕ) :
    CacheOk s (service.warmupCache defaults instant).cache := by
  have hnot : ∀ m, ¬ IsKey (warmupKey m) := by
    rintro m ⟨i, hi⟩
    -- the text of a key begins with a hexadecimal digit, and `p` is none
    obtain ⟨d, hd, hhead⟩ := Uuid.head?_toString i.query.tenantId
    have hlist := congrArg (fun k : String => k.toList.head?) hi
    simp only [toList_text, warmupKey, String.toList_append, List.append_assoc,
      List.head?_append, hhead] at hlist
    have hdigit : ∀ d < 16, 'p' ≠ Nat.digitChar d := by decide
    exact hdigit d hd (Option.some.inj hlist)
  change CacheOk s (defaults.foldl _ service.cache)
  induction defaults generalizing service with
  | nil => exact h
  | cons m rest ih =>
    rw [List.foldl_cons]
    have hput : CacheOk s ({ service with
        cache := service.cache.put (warmupKey m) ⟨m.snapshot, instant⟩ } : PricingService).cache :=
      h.put fun hkey => absurd hkey (hnot m)
    exact ih hput

theorem moves_tick (s : System) (elapsed : ℕ) : Moves s.state (s.tick elapsed).state :=
  .tick s.db (by simp [tick])

theorem tick_sound (h : s.Sound) (elapsed : ℕ) : (s.tick elapsed).Sound :=
  h.move (s.moves_tick elapsed) rfl rfl rfl

theorem act_sound (h : s.Sound) (action : Action) : (s.act action).Sound := by
  cases action with
  | commit changes => exact h.move (.commit s.db s.clock changes) rfl rfl rfl
  | start id service modelName tenantId provider =>
    simp only [act]
    cases s.calls id with
    | some call => exact h
    | none => exact h.withCall _ _ trivial
  | advance id reply instant => grind [act, advance_sound, Sound]
  | drop id =>
    simp only [act]
    cases s.calls id with
    | some call => exact h.withCall _ _ trivial
    | none => exact h
  | evict key =>
    apply h.withCached
    intro k r hr
    by_cases heq : distKey k = key
    · grind
    · rw [update_of_ne heq] at hr
      exact h.remoteOk k r hr
  | clearCache i =>
    exact h.withService fun e he => absurd he List.not_mem_nil
  | clearExpired i instant =>
    exact h.withService fun e he hkey => h.localOk i e (LruCache.mem_retain he) hkey
  | warmupCache i defaults instant =>
    exact h.withService (warmupCache_ok (h.localOk i) defaults instant)

theorem step_sound (h : s.Sound) (e : Event) : (s.step e).Sound :=
  act_sound (tick_sound h e.elapsed) e.action

theorem run_sound (h : s.Sound) (events : List Event) : (s.run events).Sound := by
  induction events generalizing s with
  | nil => exact h
  | cons e rest ih => exact ih (step_sound h e)

end System

/-! ## A call that nothing disturbs -/

/-- The rows of the model that the caller can see. -/
def PriceQuery.modelBoundaries (q : PriceQuery) (models : List PricingModel) : List Timestamp :=
  (models.filter fun m => q.visible m && decide (m.modelName = q.modelName)).flatMap
    PricingModel.boundaries

/-- The event changes no row of the platform or of the tenant, and no validity boundary of the
requested model is crossed before it. -/
def Undisturbed (q : PriceQuery) (s : System) (e : Event) : Prop :=
  (∀ b ∈ q.modelBoundaries s.db.models, ¬ (s.clock < b ∧ b ≤ s.clock + e.elapsed)) ∧
    match e.action with
    | .commit changes =>
      Scope.platform ∉ (s.db.commit changes).2 ∧
        Scope.ofTenant q.tenantId ∉ (s.db.commit changes).2
    | _ => True

def UndisturbedRun (q : PriceQuery) : System → List Event → Prop
  | _, [] => True
  | s, e :: rest => Undisturbed q s e ∧ UndisturbedRun q (s.step e) rest

theorem settled_of_modelBoundaries {models : List PricingModel} {now now' : Timestamp}
    (h : ∀ b ∈ q.modelBoundaries models, ¬ (now < b ∧ b ≤ now')) : q.Settled models now now' := by
  intro b hb
  apply h
  obtain ⟨m, hm, hbm⟩ := List.mem_flatMap.mp hb
  obtain ⟨hmem, hwatched⟩ := List.mem_filter.mp hm
  have hname : m.modelName = q.modelName := by
    simp only [PriceQuery.watched, Bool.and_eq_true, decide_eq_true_eq] at hwatched
    exact hwatched.1
  refine List.mem_flatMap.mpr ⟨m, List.mem_filter.mpr ⟨hmem, ?_⟩, hbm⟩
  simp [visible_of_watched hwatched, hname]

theorem key_tick {s : System} {elapsed : ℕ}
    (h : ∀ b ∈ q.modelBoundaries s.db.models, ¬ (s.clock < b ∧ b ≤ s.clock + elapsed)) :
    versioning.key (s.tick elapsed).state q = versioning.key s.state q := by
  have hle : s.clock ≤ s.clock + elapsed := by simp
  have hnext : nextBoundary (s.clock + elapsed) s.db.models q =
    nextBoundary s.clock s.db.models q :=
    nextBoundary_eq_of_settled (settled_of_modelBoundaries h) hle
  simp only [versioning_key, snapshotKey, runtimeCacheRevision, state, tick, hnext]

theorem key_commit {db : PricingDb} {now : Timestamp} {changes : List RowChange}
    (hplatform : Scope.platform ∉ (db.commit changes).2)
    (htenant : Scope.ofTenant q.tenantId ∉ (db.commit changes).2) :
    versioning.key ((db.commit changes).1, now) q = versioning.key (db, now) q := by
  have hchanged := commit_changed db changes
  have hp := hchanged.kept _ hplatform
  have ht := hchanged.kept _ htenant
  have hrows := hchanged.visible (q := q) (Nat.le_of_eq hp) (Nat.le_of_eq ht)
  simp only [versioning_key, snapshotKey, runtimeCacheRevision, hp, ht, nextBoundary,
    boundaries_eq_of_rows hrows]

/-- The call has computed the key that is still the current one, or has returned the current
price. -/
def Tracks (s : PricingState) (q : PriceQuery) : Phase → Prop
  | .lookup key | .remote key _ | .load key _ | .defaults key _ | .publish key _ | .store key _ =>
    versioning.key s q = key
  | .returned (.ok snapshot) => snapshot = price s q
  | .revision | .returned (.error _) | .dropped => True

theorem Tracks.move {s s' : PricingState} {phase : Phase} (hmove : Moves s s')
    (hkey : versioning.key s' q = versioning.key s q) (h : Tracks s q phase) :
    Tracks s' q phase := by
  cases phase with
  | returned result =>
    cases result with
    | error error => trivial
    | ok snapshot => exact Eq.trans h (stable_price hmove hkey).symm
  | revision => trivial
  | dropped => trivial
  | _ => exact hkey.trans h

theorem RemoteStage.next_tracks {key : String} {reply : Reply} {stage : RemoteStage}
    (h : versioning.key s q = key) : Tracks s q (stage.next cached key reply) := by
  have hremote : ∀ missed, Tracks s q missed → Tracks s q (lookupRemote cached key missed) := by
    intro missed hmissed
    unfold lookupRemote
    cases cached (distKey key) with
    | none => exact hmissed
    | some resolved => exact h
  cases stage with
  | get => cases reply <;> first | exact h | exact hremote _ h
  | marker => cases reply <;> first | exact h | trivial
  | lock => cases reply <;> exact h
  | doubleCheck => cases reply <;> first | exact h | exact hremote _ h
  | poll attempt =>
    have hmissed : Tracks s q (nextPoll key attempt) := by
      unfold nextPoll
      split <;> exact h
    cases reply <;> first | exact hmissed | exact hremote _ hmissed

theorem Phase.next_tracks {phase : Phase} {service : PricingService} {reply : Reply} {instant : ℕ}
    (hcache : CacheOk s service.cache) (hphase : PhaseOk s q phase) (h : Tracks s q phase) :
    Tracks s q (phase.next s cached service q reply instant).phase := by
  have hvia : ∀ {key} (via : Via) (resolved : SnapshotWithSource), versioning.key s q = key →
      Tracks s q (via.resolved key resolved) := by
    intro key via resolved hkey
    cases via <;> exact hkey
  cases phase with
  | revision => cases reply <;> first | exact rfl | trivial
  | lookup key =>
    have hmissed : Tracks s q (service.missed key) := by
      unfold PricingService.missed
      split <;> exact h
    simp only [Phase.next, lookupLocal]
    cases hget : (service.cache.get key).1 with
    | none => exact hmissed
    | some entry =>
      simp only
      split
      · exact hmissed
      · -- a hit: the entry agrees under the current key
        exact (hcache _ (LruCache.mem_of_get hget) (Held.isKey hphase)).2 q h
  | remote key stage => exact RemoteStage.next_tracks h
  | load key via =>
    cases hrow : effectiveRow s q with
    | some m =>
      cases reply <;> simp only [Phase.next, hrow] <;>
        first | exact hvia via _ h | (cases via <;> trivial)
    | none =>
      cases reply <;> simp only [Phase.next, hrow] <;>
        first | exact h | (cases via <;> trivial)
  | defaults key via =>
    cases reply <;> first | exact hvia via _ h | (cases via <;> trivial)
  | publish key resolved => cases reply <;> exact h
  | store key snapshot => exact hphase.2.2 q h
  | returned result => exact h
  | dropped => trivial

def CallTracks (q : PriceQuery) (id : ℕ) (s : System) : Prop :=
  ∃ call, s.calls id = some call ∧ call.query = q ∧ Tracks s.state q call.phase

theorem CallTracks.advance {id j : ℕ} {s : System} (hsound : s.Sound) (h : CallTracks q id s)
    {call : Call} (hcall : s.calls j = some call) (reply : Reply) (instant : ℕ) :
    CallTracks q id (s.advance j call reply instant) := by
  obtain ⟨own, hown, hquery, htracks⟩ := h
  by_cases hj : id = j
  · subst hj
    obtain rfl := Option.some.inj (hown.symm.trans hcall)
    refine ⟨{ own with phase := _ }, update_self _ _ _, hquery, ?_⟩
    subst hquery
    exact Phase.next_tracks (hsound.localOk own.service) (hsound.callsOk id own hown) htracks
  · exact ⟨own, (update_of_ne hj _ _).trans hown, hquery, htracks⟩

theorem CallTracks.act {id : ℕ} {s : System} (hsound : s.Sound) (h : CallTracks q id s)
    (action : Action)
    (hquiet : ∀ changes, action = .commit changes → Scope.platform ∉ (s.db.commit changes).2 ∧
      Scope.ofTenant q.tenantId ∉ (s.db.commit changes).2) : CallTracks q id (s.act action) := by
  have ⟨own, hown, hquery, htracks⟩ := h
  cases action with
  | commit changes =>
    obtain ⟨hplatform, htenant⟩ := hquiet changes rfl
    exact ⟨own, hown, hquery,
      htracks.move (.commit s.db s.clock changes) (key_commit hplatform htenant)⟩
  | start j service modelName tenantId provider =>
    simp only [System.act]
    cases hj : s.calls j with
    | some call => exact h
    | none =>
      have hne : id ≠ j := by grind
      exact ⟨own, (update_of_ne hne _ _).trans hown, hquery, htracks⟩
  | advance j reply instant =>
    simp only [System.act]
    cases hj : s.calls j with
    | some call => exact h.advance hsound hj reply instant
    | none => exact h
  | drop j =>
    simp only [System.act]
    cases hj : s.calls j with
    | none => exact h
    | some call =>
      by_cases hid : id = j
      · subst hid
        obtain rfl := Option.some.inj (hown.symm.trans hj)
        exact ⟨{ own with phase := .dropped }, update_self _ _ _, hquery, trivial⟩
      · exact ⟨own, (update_of_ne hid _ _).trans hown, hquery, htracks⟩
  | evict | clearCache | clearExpired | warmupCache => exact h

theorem CallTracks.step {id : ℕ} {s : System} (hsound : s.Sound) (h : CallTracks q id s) {e : Event}
    (hquiet : Undisturbed q s e) :
    CallTracks q id (s.step e) := by
  obtain ⟨own, hown, hquery, htracks⟩ := h
  have hkey := key_tick hquiet.1
  have htick : CallTracks q id (s.tick e.elapsed) :=
    ⟨own, hown, hquery, htracks.move (s.moves_tick e.elapsed) hkey⟩
  apply htick.act (tick_sound hsound e.elapsed)
  intro changes haction
  have := hquiet.2
  rw [haction] at this
  exact this

theorem CallTracks.run {id : ℕ} {s : System} (hsound : s.Sound) (h : CallTracks q id s)
    {events : List Event} (hquiet : UndisturbedRun q s events) :
    CallTracks q id (s.run events) := by
  induction events generalizing s with
  | nil => exact h
  | cons e rest ih => exact ih (step_sound hsound e) (h.step hsound hquiet.1) hquiet.2

/-- **Price snapshots are never stale.**  From any price list and empty caches, after any history
of transactions, calls and cache operations, start a call; if nothing disturbs the query until
the call has returned, the returned price is the one `load_from_database_with_source` computes
on that state at that time, which is the price in force. -/
theorem snapshot_never_stale (db : PricingDb) (clock : Timestamp) (config : ℕ → ℕ × Bool × ℕ)
    (before during : List Event) (elapsed id service : ℕ) (modelName : String) (tenantId : Uuid)
    (provider : Option BillingDimension) (snapshot : PricingSnapshot)
    (hnew : ((System.initial db clock config).run before).calls id = none)
    (hquiet : UndisturbedRun (resolveQuery modelName tenantId provider)
      (((System.initial db clock config).run before).step
        ⟨elapsed, .start id service modelName tenantId provider⟩) during)
    (hreturned : ((((System.initial db clock config).run before).step
        ⟨elapsed, .start id service modelName tenantId provider⟩).run during).calls id =
      some ⟨service, resolveQuery modelName tenantId provider, .returned (.ok snapshot)⟩) :
    let final := (((System.initial db clock config).run before).step
      ⟨elapsed, .start id service modelName tenantId provider⟩).run during
    snapshot = (loadFromDatabaseWithSource final.clock final.db.models
        (resolveQuery modelName tenantId provider)).snapshot ∧
      snapshot = effectivePrice final.clock final.db.models
        (resolveQuery modelName tenantId provider) := by
  intro final
  have hsound := System.run_sound (System.initial_sound db clock config) before
  have hstarted := System.step_sound hsound ⟨elapsed, .start id service modelName tenantId provider⟩
  have htracks : CallTracks (resolveQuery modelName tenantId provider) id
      (((System.initial db clock config).run before).step
        ⟨elapsed, .start id service modelName tenantId provider⟩) := by
    refine ⟨⟨service, resolveQuery modelName tenantId provider, .revision⟩, ?_, rfl, trivial⟩
    have hnew' : (((System.initial db clock config).run before).tick elapsed).calls id = none :=
      hnew
    simp only [System.step, System.act, hnew']
    exact update_self _ _ _
  obtain ⟨call, hcall, -, hprice⟩ := htracks.run hstarted hquiet
  obtain rfl := Option.some.inj (hcall.symm.trans hreturned)
  have hload : snapshot = (loadFromDatabaseWithSource final.clock final.db.models
      (resolveQuery modelName tenantId provider)).snapshot := hprice
  exact ⟨hload, hload.trans (load_snapshot final.db.constraints)⟩

/-- A platform default of a model whose name contains the separator. -/
def sampleModel : PricingModel :=
  ⟨1, .platform, none, "gpt:4o", .node, "CNY", 5, 7, true, 0, none, 0⟩

def sampleDb : PricingDb := ⟨[sampleModel], by decide +kernel, [⟨Scope.platform, 1⟩]⟩

/-- A call in one process fills the distributed cache. -/
def sampleBefore : List Event :=
  [⟨1, .start 0 0 "gpt:4o" 7 none⟩, ⟨1, .advance 0 .done 0⟩, ⟨1, .advance 0 .done 0⟩,
    ⟨1, .advance 0 .done 0⟩, ⟨1, .advance 0 .done 0⟩, ⟨1, .advance 0 .acquired 0⟩,
    ⟨1, .advance 0 .done 0⟩, ⟨1, .advance 0 .done 0⟩, ⟨1, .advance 0 .done 0⟩,
    ⟨1, .advance 0 .done 0⟩, ⟨1, .advance 0 .done 0⟩]

/-- A call in another process finds the price there. -/
def sampleDuring : List Event :=
  [⟨1, .advance 1 .done 0⟩, ⟨1, .advance 1 .done 0⟩, ⟨1, .advance 1 .done 0⟩,
    ⟨1, .advance 1 .done 0⟩]

theorem snapshot_never_stale_sample :
    let final := (((System.initial sampleDb 10 fun _ => (4, true, 300)).run sampleBefore).step
      ⟨1, .start 1 1 "gpt:4o" 7 none⟩).run sampleDuring
    sampleModel.snapshot = (loadFromDatabaseWithSource final.clock final.db.models
        (resolveQuery "gpt:4o" 7 none)).snapshot ∧
      sampleModel.snapshot = effectivePrice final.clock final.db.models
        (resolveQuery "gpt:4o" 7 none) := by
  apply snapshot_never_stale sampleDb 10 (fun _ => (4, true, 300)) sampleBefore sampleDuring 1 1 1
    "gpt:4o" 7 none sampleModel.snapshot
  · rfl
  · exact ⟨⟨by decide +kernel, trivial⟩, ⟨by decide +kernel, trivial⟩, ⟨by decide +kernel, trivial⟩,
      ⟨by decide +kernel, trivial⟩, trivial⟩
  · rfl

end KeyCompute.Pricing
