import KeyCompute.Redis.Key
import KeyCompute.Relational.Transaction

/-!
# Caches with shared fetches and invalidation

A read is answered from an entry, joins the fetch in progress for its key, or starts one.  An
invalidation drops all entries, makes the fetches in progress unjoinable and begins a new epoch; a
fetch of an earlier epoch can still complete, but its value is not stored.

What a cache decides for itself is a `Policy`, and `Lawful` what a policy has to keep.  `Coherent`
is the invariant: entries and joinable fetches are of the current epoch.
-/

namespace KeyCompute.Cache.Fenced

open Redis (get put del)

variable {κ ν ω ε : Type} [DecidableEq κ]

/-- A stored value, and the fetch that it comes from. -/
structure Entry (ν : Type) where
  value : ν
  expires : ℕ
  lastUsed : ℕ
  bytes : ℕ
  flight : ℕ

structure State (κ ν : Type) where
  entries : List (κ × Entry ν) := []
  /-- The joinable fetch of a key, with its epoch. -/
  pending : List (κ × ℕ × ℕ) := []
  flights : List ℕ := []
  epoch : ℕ := 0
  nextFlight : ℕ := 0
  clock : ℕ := 0
  bytes : ℕ := 0

def total (entries : List (κ × Entry ν)) : ℕ := (entries.map fun e => e.2.bytes).sum

structure Policy (κ ν ω ε : Type) where
  maxEntries : ℕ
  maxFlights : ℕ
  maxBytes : ℕ
  /-- The beginning of a read: expired entries go. -/
  prepare : ℕ → State κ ν → State κ ν
  /-- The use of an entry. -/
  touch : State κ ν → State κ ν
  /-- A fetch is compared with its epoch, too. -/
  fencesFlights : Bool
  busy : ε
  /-- What is left of a result that comes too late. -/
  refuse : Except ε ν → Except ε ν
  /-- When a value that is to be stored expires, and its size. -/
  admits : ℕ → ν → Option (ℕ × ℕ)
  store : κ → Entry ν → List (κ × Entry ν) → ℕ → List (κ × Entry ν) × ℕ
  /-- What a caller gets: whether the epoch is the same, the deadline of an entry, the time. -/
  deliver : Bool → Option ℕ → ℕ → Except ε ν → Except ε ω

/-- A fetch, the reads that wait for it, and its result. -/
structure Fetch (κ ν ε : Type) where
  key : κ
  epoch : ℕ
  waiters : ℕ := 1
  result : Option (Except ε ν) := none

inductive Source (ν : Type) where
  | entry (entry : Entry ν)
  | fetch (id : ℕ)

def Source.flight : Source ν → ℕ
  | .entry e => e.flight
  | .fetch id => id

inductive Stage (ω ε : Type) where
  | waiting
  | answered (result : Except ε ω)
  | cancelled

/-- A read that is not refused, with the epoch in which it began. -/
structure Read (κ ν ω ε : Type) where
  key : κ
  source : Source ν
  begun : ℕ
  fence : ℕ
  stage : Stage ω ε := .waiting

structure System (κ ν ω ε : Type) where
  state : State κ ν := {}
  fetches : List (Fetch κ ν ε) := []
  reads : List (Read κ ν ω ε) := []
  refused : List ε := []
  now : ℕ := 0

namespace System

variable (policy : Policy κ ν ω ε) (sys : System κ ν ω ε)

def alive (id : ℕ) : Bool := sys.fetches[id]?.any fun fetch => 0 < fetch.waiters

def unfinished (id : ℕ) : Bool :=
  sys.fetches[id]?.any fun fetch => 0 < fetch.waiters && fetch.result.isNone

def joinable (key : κ) (id : ℕ) : Bool :=
  ((get key sys.state.pending).any fun flight => flight.1 = id) && sys.alive id

/-- The cleaning at the beginning of a read. -/
def swept : State κ ν :=
  let state := policy.prepare sys.now sys.state
  { state with
    flights := state.flights.filter sys.alive,
    pending := state.pending.filter fun flight => sys.alive flight.2.1 }

def wait (id : ℕ) (f : ℕ → ℕ) : List (Fetch κ ν ε) :=
  sys.fetches.modify id fun fetch => { fetch with waiters := f fetch.waiters }

def read (key : κ) : System κ ν ω ε :=
  let state := sys.swept policy
  match get key state.entries with
  | some entry =>
    let state := policy.touch state
    { sys with
      state := { state with
        entries := put key { entry with lastUsed := state.clock } state.entries },
      reads := sys.reads ++
        [{ key, source := .entry entry, begun := state.epoch, fence := state.epoch }] }
  | none =>
    match get key state.pending with
    | some (id, epoch) =>
      { sys with
        state,
        fetches := sys.wait id (· + 1),
        reads := sys.reads ++
          [{ key, source := .fetch id, begun := state.epoch,
             fence := if policy.fencesFlights then epoch else state.epoch }] }
    | none =>
      if state.flights.length ≥ policy.maxFlights then
        { sys with state, refused := sys.refused ++ [policy.busy] }
      else
        { sys with
          state := { state with
            nextFlight := state.nextFlight + 1,
            flights := state.flights ++ [state.nextFlight],
            pending := put key (state.nextFlight, state.epoch) state.pending },
          fetches := sys.fetches ++ [{ key, epoch := state.epoch }],
          reads := sys.reads ++
            [{ key, source := .fetch state.nextFlight, begun := state.epoch,
               fence := state.epoch }] }

def valid (state : State κ ν) (id : ℕ) (fetch : Fetch κ ν ε) : Bool :=
  state.epoch = fetch.epoch &&
    (get fetch.key state.pending).any fun flight =>
      flight.1 = id && (!policy.fencesFlights || flight.2 = fetch.epoch)

def finish (id : ℕ) (fetch : Fetch κ ν ε) (result : Except ε ν) (now : ℕ) (state : State κ ν) :
    Except ε ν × State κ ν :=
  let flights := state.flights.erase id
  if valid policy state id fetch then
    let state := { state with flights, pending := del fetch.key state.pending }
    match result with
    | .error e => (.error e, state)
    | .ok value =>
      match policy.admits now value with
      | none => (.ok value, state)
      | some (expires, bytes) =>
        let stored := policy.store fetch.key
          { value, expires, lastUsed := state.clock + 1, bytes, flight := id } state.entries
          state.bytes
        (.ok value,
          { state with entries := stored.1, bytes := stored.2, clock := state.clock + 1 })
  else (policy.refuse result, { state with flights })

def complete (id : ℕ) (result : Except ε ν) : System κ ν ω ε :=
  match sys.fetches[id]? with
  | some fetch =>
    if sys.unfinished id then
      let finished := finish policy id fetch result sys.now sys.state
      { sys with
        state := finished.2,
        fetches := sys.fetches.set id { fetch with result := some finished.1 } }
    else sys
  | none => sys

def leave (i : ℕ) (read : Read κ ν ω ε) (stage : Stage ω ε) : System κ ν ω ε :=
  { sys with
    reads := sys.reads.set i { read with stage },
    fetches := match read.source with
      | .entry _ => sys.fetches
      | .fetch id => sys.wait id (· - 1) }

def answer? (read : Read κ ν ω ε) : Option (Except ε ω) :=
  match read.source with
  | .entry entry =>
    some (policy.deliver (sys.state.epoch = read.fence) (some entry.expires) sys.now
      (.ok entry.value))
  | .fetch id =>
    (sys.fetches[id]?.bind Fetch.result).map fun result =>
      policy.deliver (sys.state.epoch = read.fence) none sys.now result

def deliver (i : ℕ) : System κ ν ω ε :=
  match sys.reads[i]? with
  | some read =>
    match read.stage, sys.answer? policy read with
    | .waiting, some result => sys.leave i read (.answered result)
    | _, _ => sys
  | none => sys

def cancel (i : ℕ) : System κ ν ω ε :=
  match sys.reads[i]? with
  | some read =>
    match read.stage with
    | .waiting => sys.leave i read .cancelled
    | _ => sys
  | none => sys

/-- All entries go, and no fetch can be joined. -/
def invalidate : System κ ν ω ε :=
  { sys with
    state := { sys.state with
      entries := [], bytes := 0, pending := [], epoch := sys.state.epoch + 1,
      flights := sys.state.flights.filter sys.alive } }

end System

inductive Event (κ ν ε : Type) where
  | read (key : κ)
  | complete (id : ℕ) (result : Except ε ν)
  | deliver (i : ℕ)
  | cancel (i : ℕ)
  | invalidate
  | tick (ms : ℕ)

def step (policy : Policy κ ν ω ε) (event : Event κ ν ε) (sys : System κ ν ω ε) :
    System κ ν ω ε :=
  match event with
  | .read key => sys.read policy key
  | .complete id result => sys.complete policy id result
  | .deliver i => sys.deliver policy i
  | .cancel i => sys.cancel i
  | .invalidate => sys.invalidate
  | .tick ms => { sys with now := sys.now + ms }

def run (policy : Policy κ ν ω ε) (events : List (Event κ ν ε)) (sys : System κ ν ω ε) :
    System κ ν ω ε :=
  Relational.runAll (step policy) events sys

/-! ## What a policy has to keep -/

/-- Nothing but the entries, their size and the clock differs, and no entry is new. -/
structure Cleaned (state state' : State κ ν) : Prop where
  entries : state'.entries.Sublist state.entries
  bytes : state'.bytes = total state'.entries
  pending : state'.pending = state.pending
  flights : state'.flights = state.flights
  epoch : state'.epoch = state.epoch
  nextFlight : state'.nextFlight = state.nextFlight

/-- The entries are counted, within the limits of a policy. -/
structure Counted (policy : Policy κ ν ω ε) (entries : List (κ × Entry ν)) (bytes : ℕ) : Prop where
  keys : (entries.map Prod.fst).Nodup
  sum : bytes = total entries
  maxBytes : bytes ≤ policy.maxBytes
  maxEntries : entries.length ≤ policy.maxEntries

structure Lawful (policy : Policy κ ν ω ε) : Prop where
  prepare : ∀ now state, Counted policy state.entries state.bytes →
    Cleaned state (policy.prepare now state)
  touch : ∀ state, ∃ clock, policy.touch state = { state with clock }
  store : ∀ now value expires size, policy.admits now value = some (expires, size) →
    ∀ key entries bytes (entry : Entry ν), entry.bytes = size → Counted policy entries bytes →
      Counted policy (policy.store key entry entries bytes).1
        (policy.store key entry entries bytes).2 ∧
      ∀ e ∈ (policy.store key entry entries bytes).1, e = (key, entry) ∨ e ∈ entries

/-! ## Eviction -/

/-- Entries go, the least recently used first, until there is room. -/
def evict (full : List (κ × Entry ν) → ℕ → Bool) :
    ℕ → List (κ × Entry ν) → ℕ → List (κ × Entry ν) × ℕ
  | 0, entries, bytes => (entries, bytes)
  | fuel + 1, entries, bytes =>
    if full entries bytes then
      match entries.argmin fun e => e.2.lastUsed with
      | some oldest => evict full fuel (del oldest.1 entries) (bytes - oldest.2.bytes)
      | none => (entries, bytes)
    else (entries, bytes)

theorem total_del {entries : List (κ × Entry ν)} (unique : (entries.map Prod.fst).Nodup)
    {e : κ × Entry ν} (he : e ∈ entries) :
    total (del e.1 entries) + e.2.bytes = total entries :=
  Redis.sum_del (c := Entry.bytes) unique (Redis.get_of_mem unique he)

/-- **What is left after the eviction**: entries from before, counted, and room unless none is
left. -/
theorem evict_spec (full : List (κ × Entry ν) → ℕ → Bool) (fuel : ℕ)
    (entries : List (κ × Entry ν)) (bytes : ℕ) (hfuel : entries.length ≤ fuel)
    (unique : (entries.map Prod.fst).Nodup) (hbytes : bytes = total entries) :
    (evict full fuel entries bytes).1.Sublist entries ∧
    (evict full fuel entries bytes).2 = total (evict full fuel entries bytes).1 ∧
    ((evict full fuel entries bytes).1 = [] ∨
      full (evict full fuel entries bytes).1 (evict full fuel entries bytes).2 = false) := by
  induction fuel generalizing entries bytes with
  | zero =>
    obtain rfl := List.eq_nil_of_length_eq_zero (Nat.le_zero.mp hfuel)
    exact ⟨List.Sublist.refl _, hbytes, .inl rfl⟩
  | succ fuel ih =>
    unfold evict
    split
    · split
      · rename_i oldest holdest
        have hmem := List.argmin_mem holdest
        have hlt := Redis.length_del_lt hmem
        have hsum := total_del unique hmem
        obtain ⟨hsub, hrest⟩ := ih (del oldest.1 entries) (bytes - oldest.2.bytes) (by omega)
          (Redis.nodup_del unique) (by omega)
        exact ⟨hsub.trans List.filter_sublist, hrest⟩
      · rename_i hnone
        obtain rfl := List.argmin_eq_none.mp hnone
        exact ⟨List.Sublist.refl _, hbytes, .inl rfl⟩
    · rename_i hover
      exact ⟨List.Sublist.refl _, hbytes, .inr (Bool.eq_false_of_not_eq_true hover)⟩

end KeyCompute.Cache.Fenced
