import KeyCompute.Cache.Coherence
import KeyCompute.Json.Encode

/-!
# The caches of the console

The query cache of the client and the display cache of the server are caches with shared fetches;
what differs between them is in their policies.  Times are in milliseconds.

Both are lawful, hence fenced: `console_reads_fenced`.
-/

namespace KeyCompute.Cache

open Fenced Redis
open Redis (get put del)

/-- The errors of a console read; the first two kinds are shown whatever happens. -/
inductive ReadError where
  | unauthorized (message : String)
  | forbidden (message : String)
  | other (message : String)
  deriving DecidableEq

def ReadError.visible : ReadError → Bool
  | unauthorized _ | forbidden _ => true
  | other _ => false

/-- A result that comes too late: only errors of authorization are shown. -/
def refuseWith {ν : Type} (message : String) : Except ReadError ν → Except ReadError ν
  | .error e => if e.visible then .error e else .error (.other message)
  | .ok _ => .error (.other message)

def asU64 : JsonValue → Option ℕ
  | .number text => text.toNat?.filter (· < 2 ^ 64)
  | _ => none

variable {κ : Type} [DecidableEq κ]

def removeEntry {ν : Type} (key : κ) (cached : List (κ × Entry ν) × ℕ) : List (κ × Entry ν) × ℕ :=
  match get key cached.1 with
  | some entry => (del key cached.1, cached.2 - entry.bytes)
  | none => cached

/-! ## The client -/

namespace QueryCache

def maxEntries : ℕ := 64
def maxPending : ℕ := 64
def maxResponseBytes : ℕ := 1024 * 1024
def maxCacheBytes : ℕ := 8 * 1024 * 1024
def freshFor : ℕ := 2000

def prepare (now : ℕ) (state : State κ JsonValue) : State κ JsonValue :=
  let expired := (state.entries.filter fun e => e.2.expires ≤ now).map Prod.fst
  let kept := expired.foldl (fun cached key => removeEntry key cached) (state.entries, state.bytes)
  { state with entries := kept.1, bytes := kept.2 }

def lifetime (value : JsonValue) : ℕ :=
  min (((value.get "cache_max_age_ms").bind asU64).getD freshFor) freshFor

def admits (now : ℕ) (value : JsonValue) : Option (ℕ × ℕ) :=
  if value.size > maxResponseBytes ∨ lifetime value = 0 then none
  else some (now + lifetime value, value.size)

def store (key : κ) (entry : Entry JsonValue) (entries : List (κ × Entry JsonValue)) (bytes : ℕ) :
    List (κ × Entry JsonValue) × ℕ :=
  let cached := removeEntry key (entries, bytes)
  let left := evict
    (fun entries bytes =>
      ((get key entries).isNone && entries.length ≥ maxEntries) ||
        bytes + entry.bytes > maxCacheBytes)
    cached.1.length cached.1 cached.2
  (put key entry left.1, left.2 + entry.bytes)

def fenceDelivery (current : Bool) (result : Except ReadError JsonValue) :
    Except ReadError JsonValue :=
  if current then result else refuseWith "console read invalidated before delivery" result

def deliver (current : Bool) (expires : Option ℕ) (now : ℕ) (result : Except ReadError JsonValue) :
    Except ReadError JsonValue :=
  if expires.any (· ≤ now) then .error (.other "console read expired before delivery")
  else fenceDelivery current result

def policy : Policy κ JsonValue JsonValue ReadError where
  maxEntries := maxEntries
  maxFlights := maxPending
  maxBytes := maxCacheBytes
  prepare := prepare
  touch := fun state => { state with clock := state.clock + 1 }
  fencesFlights := true
  busy := .other "console read concurrency limit reached"
  refuse := refuseWith "console read invalidated before completion"
  admits := admits
  store := store
  deliver := deliver

end QueryCache

/-! ## The server -/

namespace DisplayCache

def maxEntries : ℕ := 128
def maxFlights : ℕ := 64
def maxBytes : ℕ := 4 * 1024 * 1024
def maxValueBytes : ℕ := 256 * 1024

structure Snapshot where
  value : JsonValue
  expires : ℕ

def prepare (now : ℕ) (state : State κ Snapshot) : State κ Snapshot :=
  let entries := state.entries.filter fun e => e.2.value.expires > now
  { state with entries, bytes := total entries, clock := state.clock + 1 }

def admits (now : ℕ) (snapshot : Snapshot) : Option (ℕ × ℕ) :=
  if snapshot.value.size ≤ maxValueBytes ∧ snapshot.expires > now then
    some (snapshot.expires, snapshot.value.size)
  else none

def store (key : κ) (entry : Entry Snapshot) (entries : List (κ × Entry Snapshot)) (bytes : ℕ) :
    List (κ × Entry Snapshot) × ℕ :=
  let left := evict
    (fun entries bytes => entries.length ≥ maxEntries || bytes + entry.bytes > maxBytes)
    entries.length entries bytes
  match get key left.1 with
  | some old => (put key entry left.1, left.2 - old.bytes + entry.bytes)
  | none => (put key entry left.1, left.2 + entry.bytes)

def shown (now : ℕ) (snapshot : Snapshot) : JsonValue :=
  match snapshot.value with
  | .object fields =>
    .object (JsonValue.setField "cache_max_age_ms"
      (.number (toString (snapshot.expires - now))) fields)
  | value => value

def deliver (current : Bool) (_ : Option ℕ) (now : ℕ) :
    Except ReadError Snapshot → Except ReadError JsonValue
  | .error e =>
    if current ∨ e.visible then .error e
    else .error (.other "Display query was invalidated; retry the read")
  | .ok snapshot =>
    if ¬current then .error (.other "Display query was invalidated; retry the read")
    else if snapshot.expires ≤ now then
      .error (.other "Display snapshot expired; retry the read")
    else .ok (shown now snapshot)

def policy : Policy κ Snapshot JsonValue ReadError where
  maxEntries := maxEntries
  maxFlights := maxFlights
  maxBytes := maxBytes
  prepare := prepare
  touch := id
  fencesFlights := false
  busy := .other "Display query capacity exhausted"
  refuse := refuseWith "Display query invalidated before completion"
  admits := admits
  store := store
  deliver := deliver

end DisplayCache

/-! ## Both are lawful -/

section Laws

variable {ν : Type} {entries : List (κ × Entry ν)} {bytes : ℕ}

theorem removeEntry_spec (key : κ) (unique : (entries.map Prod.fst).Nodup)
    (hbytes : bytes = total entries) :
    (removeEntry key (entries, bytes)).1.Sublist entries ∧
    (removeEntry key (entries, bytes)).2 = total (removeEntry key (entries, bytes)).1 ∧
    get key (removeEntry key (entries, bytes)).1 = none := by
  unfold removeEntry
  cases hget : get key entries with
  | none => exact ⟨List.Sublist.refl _, hbytes, hget⟩
  | some entry =>
    have hsum : total (del key entries) + entry.bytes = total entries :=
      sum_del (c := Entry.bytes) unique hget
    refine ⟨List.filter_sublist, ?_, ?_⟩
    · simp only
      omega
    · simp only [get_del, Function.update_self]

theorem foldl_removeEntry (keys : List κ) (unique : (entries.map Prod.fst).Nodup)
    (hbytes : bytes = total entries) :
    (keys.foldl (fun cached key => removeEntry key cached) (entries, bytes)).1.Sublist entries ∧
    (keys.foldl (fun cached key => removeEntry key cached) (entries, bytes)).2 =
      total (keys.foldl (fun cached key => removeEntry key cached) (entries, bytes)).1 := by
  induction keys generalizing entries bytes with
  | nil => exact ⟨List.Sublist.refl _, hbytes⟩
  | cons key rest ih =>
    obtain ⟨hsub, hsum, -⟩ := removeEntry_spec key unique hbytes
    obtain ⟨hsub', hsum'⟩ := ih (unique.sublist (hsub.map _)) hsum
    exact ⟨hsub'.trans hsub, hsum'⟩

theorem counted_put {ω ε : Type} (policy : Policy κ ν ω ε) (key : κ) (entry : Entry ν)
    (unique : (entries.map Prod.fst).Nodup) (hbytes : bytes = total entries)
    (hroom : entries = [] ∨
      entries.length < policy.maxEntries ∧ bytes + entry.bytes ≤ policy.maxBytes)
    (hpositive : 0 < policy.maxEntries) (hsize : entry.bytes ≤ policy.maxBytes) :
    Counted policy (put key entry entries)
      (bytes - ((get key entries).elim 0 Entry.bytes) + entry.bytes) := by
  have hle : bytes + entry.bytes ≤ policy.maxBytes ∧ entries.length < policy.maxEntries := by
    rcases hroom with rfl | ⟨hlength, hbound⟩
    · subst hbytes
      exact ⟨by simpa [total] using hsize, hpositive⟩
    · exact ⟨hbound, hlength⟩
  cases hget : get key entries with
  | none =>
    refine ⟨nodup_put unique, ?_, ?_, ?_⟩
    · rw [hbytes]
      exact (sum_put_of_none (c := Entry.bytes) hget).symm
    · simp only [Option.elim_none]
      omega
    · rw [put_of_none hget, List.length_append, List.length_singleton]
      omega
  | some old =>
    have hsum : total (put key entry entries) + old.bytes = total entries + entry.bytes :=
      sum_put_add (c := Entry.bytes) unique hget
    have hdel : total (del key entries) + old.bytes = total entries :=
      sum_del (c := Entry.bytes) unique hget
    refine ⟨nodup_put unique, ?_, ?_, ?_⟩
    · simp only [Option.elim_some]
      omega
    · simp only [Option.elim_some]
      omega
    · rw [put_of_some hget, List.length_map]
      omega

end Laws

theorem QueryCache.lawful : Lawful (@QueryCache.policy κ _) where
  prepare := fun now state h => by
    obtain ⟨hsub, hsum⟩ := foldl_removeEntry
      ((state.entries.filter fun e => e.2.expires ≤ now).map Prod.fst) h.keys h.sum
    exact ⟨hsub, hsum, rfl, rfl, rfl, rfl⟩
  touch := fun state => ⟨_, rfl⟩
  store := fun now value expires size hadmits key entries bytes entry hentry h => by
    have hsize : entry.bytes ≤ QueryCache.maxResponseBytes := by
      have hadmits' : QueryCache.admits now value = some (expires, size) := hadmits
      unfold QueryCache.admits at hadmits'
      split at hadmits'
      · cases hadmits'
      · rename_i hsmall
        obtain ⟨-, rfl⟩ := Prod.mk.inj (Option.some.inj hadmits')
        rw [hentry]
        exact Nat.le_of_not_lt fun hlarge => hsmall (.inl hlarge)
    obtain ⟨hsub, hsum, hnone⟩ := removeEntry_spec key h.keys h.sum
    have hunique := h.keys.sublist (hsub.map _)
    obtain ⟨hleft, hleftSum, hroom⟩ := evict_spec
      (fun entries bytes => ((get key entries).isNone &&
        entries.length ≥ QueryCache.maxEntries) || bytes + entry.bytes > QueryCache.maxCacheBytes)
      _ _ _ (Nat.le_refl _) hunique hsum
    have hfree : get key (evict _ _ _ _).1 = none :=
      get_eq_none.mpr fun hmem => get_eq_none.mp hnone ((hleft.map _).subset hmem)
    have hput := counted_put QueryCache.policy key entry
      (hunique.sublist (hleft.map _)) hleftSum
      (hroom.imp_right fun hroom => by
        simp only [hfree, Option.isNone_none, Bool.true_and, Bool.or_eq_false_iff,
          decide_eq_false_iff_not] at hroom
        exact ⟨Nat.lt_of_not_le hroom.1, Nat.le_of_not_lt hroom.2⟩)
      (show 0 < QueryCache.maxEntries by decide)
      (Nat.le_trans hsize (show QueryCache.maxResponseBytes ≤ QueryCache.maxCacheBytes by decide))
    rw [hfree, Option.elim_none, Nat.sub_zero] at hput
    refine ⟨hput, fun e he => ?_⟩
    exact (mem_put he).imp_right fun he => hsub.subset (hleft.subset he)

theorem DisplayCache.lawful : Lawful (@DisplayCache.policy κ _) where
  prepare := fun now state _ => ⟨List.filter_sublist, rfl, rfl, rfl, rfl, rfl⟩
  touch := fun state => ⟨state.clock, rfl⟩
  store := fun now value expires size hadmits key entries bytes entry hentry h => by
    have hsize : entry.bytes ≤ DisplayCache.maxValueBytes := by
      have hadmits' : DisplayCache.admits now value = some (expires, size) := hadmits
      unfold DisplayCache.admits at hadmits'
      split at hadmits'
      · rename_i hsmall
        obtain ⟨-, rfl⟩ := Prod.mk.inj (Option.some.inj hadmits')
        rw [hentry]
        exact hsmall.1
      · cases hadmits'
    obtain ⟨hleft, hleftSum, hroom⟩ := evict_spec
      (fun entries bytes => entries.length ≥ DisplayCache.maxEntries ||
        bytes + entry.bytes > DisplayCache.maxBytes)
      _ _ _ (Nat.le_refl _) h.keys h.sum
    have hput := counted_put DisplayCache.policy key entry
      (h.keys.sublist (hleft.map _)) hleftSum
      (hroom.imp_right fun hroom => by
        simp only [Bool.or_eq_false_iff, decide_eq_false_iff_not] at hroom
        exact ⟨Nat.lt_of_not_le hroom.1, Nat.le_of_not_lt hroom.2⟩)
      (show 0 < DisplayCache.maxEntries by decide)
      (Nat.le_trans hsize (show DisplayCache.maxValueBytes ≤ DisplayCache.maxBytes by decide))
    simp only [DisplayCache.policy, DisplayCache.store]
    split
    · rename_i old hget
      rw [hget] at hput
      exact ⟨hput, fun e he => (mem_put he).imp_right (hleft.subset ·)⟩
    · rename_i hget
      rw [hget] at hput
      exact ⟨hput, fun e he => (mem_put he).imp_right (hleft.subset ·)⟩

/-- What invalidation and the limits mean for a cache, in every run.  Reads and fetches are new if
they are not among those before the invalidation. -/
def Fences {ν ω ε : Type} (policy : Policy κ ν ω ε) : Prop :=
  (∀ before after : List (Event κ ν ε), ∀ sys sys' : System κ ν ω ε,
    run policy before {} = sys → run policy (before ++ .invalidate :: after) {} = sys' →
      (∀ (i : ℕ) (read : Read κ ν ω ε) (answer : Except ε ω), sys.reads.length ≤ i →
        sys'.reads[i]? = some read → read.stage = .answered answer →
        ∃ id, Later sys sys' read.key id ∧
          Delivers (Got policy (before ++ .invalidate :: after)) policy id answer) ∧
      ∀ e ∈ sys'.state.entries, ∃ id, Later sys sys' e.1 id ∧
        Got policy (before ++ .invalidate :: after) id (.ok e.2.value)) ∧
  ∀ events : List (Event κ ν ε), ∀ sys : System κ ν ω ε, run policy events {} = sys →
    sys.state.bytes = total sys.state.entries ∧ sys.state.bytes ≤ policy.maxBytes ∧
    sys.state.entries.length ≤ policy.maxEntries ∧
    ((List.range sys.fetches.length).filter sys.unfinished).length ≤ 64 ∧
    ∀ key id id', sys.joinable key id = true → sys.joinable key id' = true → id = id'

theorem fences_of_lawful {ν ω ε : Type} {policy : Policy κ ν ω ε} (lawful : Lawful policy)
    (hflights : policy.maxFlights = 64) : Fences policy := by
  refine ⟨fun before after sys sys' hsys hsys' => fenced_after lawful before after hsys hsys',
    fun events sys hsys => ?_⟩
  have h : Coherent policy sys := hsys ▸ Coherent.run lawful events
  refine ⟨h.counted.sum, h.counted.maxBytes, h.counted.maxEntries, hflights ▸ h.unfinished_le,
    fun key id id' hid hid' => ?_⟩
  obtain ⟨hpending, -⟩ := Bool.and_eq_true_iff.mp hid
  obtain ⟨hpending', -⟩ := Bool.and_eq_true_iff.mp hid'
  cases hget : get key sys.state.pending with
  | none =>
    rw [hget] at hpending
    cases hpending
  | some flight =>
    rw [hget] at hpending hpending'
    exact (of_decide_eq_true hpending).symm.trans (of_decide_eq_true hpending')

/-- **Invalidation fences the reads of both console caches**, and both keep their limits. -/
theorem console_reads_fenced :
    Fences (@QueryCache.policy κ _) ∧ Fences (@DisplayCache.policy κ _) :=
  ⟨fences_of_lawful QueryCache.lawful rfl, fences_of_lawful DisplayCache.lawful rfl⟩

end KeyCompute.Cache
