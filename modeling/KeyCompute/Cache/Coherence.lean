import KeyCompute.Cache.Fenced

/-!
# Invalidation fences a lawful cache

`Coherent` holds in every state of every run of a lawful cache (`Coherent.run`).  Its clauses follow
the life of a fetch: it is started in the current epoch and is joinable until it completes or is
invalidated; its value is stored only if neither has happened before.
-/

namespace KeyCompute.Cache.Fenced

open List Nat

open Redis (get put del)

variable {κ ν ω ε : Type}

/-- The key and the epoch with which a fetch was started. -/
def originOf (fetches : List (Fetch κ ν ε)) (id : ℕ) : Option (κ × ℕ) :=
  fetches[id]?.map fun fetch => (fetch.key, fetch.epoch)

/-- Entries and joinable fetches are of the current epoch, and the fetches that are not finished are
counted. -/
structure Coherent (policy : Policy κ ν ω ε) (sys : System κ ν ω ε) : Prop where
  counted : Counted policy sys.state.entries sys.state.bytes
  fresh : sys.state.nextFlight = sys.fetches.length
  past : ∀ id key epoch, originOf sys.fetches id = some (key, epoch) → epoch ≤ sys.state.epoch
  entries : ∀ e ∈ sys.state.entries, originOf sys.fetches e.2.flight = some (e.1, sys.state.epoch)
  pendingKeys : (sys.state.pending.map Prod.fst).Nodup
  pending : ∀ flight ∈ sys.state.pending,
    flight.2.2 = sys.state.epoch ∧
      originOf sys.fetches flight.2.1 = some (flight.1, sys.state.epoch)
  flights : sys.state.flights.Nodup
  allocated : ∀ id ∈ sys.state.flights, id < sys.fetches.length
  bounded : sys.state.flights.length ≤ policy.maxFlights
  unfinished : ∀ id, sys.unfinished id = true → id ∈ sys.state.flights
  reads : ∀ read ∈ sys.reads,
    read.fence = read.begun ∧ originOf sys.fetches read.source.flight = some (read.key, read.begun)

section Fetches

variable {sys : System κ ν ω ε} {id i : ℕ} {fetch : Fetch κ ν ε}

theorem originOf_wait {f : ℕ → ℕ} : originOf (sys.wait i f) id = originOf sys.fetches id := by
  unfold originOf System.wait
  rw [getElem?_modify, Option.map_eq_map, Option.map_map]
  congr 1
  funext fetch
  rw [Function.comp_apply]
  split <;> rfl

variable {fetches : List (Fetch κ ν ε)}

theorem originOf_set (h : fetches[i]? = some fetch) (result : Option (Except ε ν)) :
    originOf (fetches.set i { fetch with result }) id = originOf fetches id := by
  unfold originOf
  by_cases hi : i = id
  · subst hi
    rw [getElem?_set_self (List.getElem?_eq_some_iff.mp h).1, h]
    rfl
  · rw [getElem?_set_ne hi]

theorem originOf_append {origin : κ × ℕ} (h : originOf fetches id = some origin)
    (new : Fetch κ ν ε) : originOf (fetches ++ [new]) id = some origin := by
  obtain ⟨fetch, hfetch, rfl⟩ := Option.map_eq_some_iff.mp h
  unfold originOf
  rw [List.getElem?_append_left (List.getElem?_eq_some_iff.mp hfetch).1, hfetch]
  rfl

theorem originOf_new (new : Fetch κ ν ε) :
    originOf (fetches ++ [new]) fetches.length = some (new.key, new.epoch) := by
  unfold originOf
  rw [getElem?_concat_length]
  rfl

theorem originOf_append_cases {new : Fetch κ ν ε} {origin : κ × ℕ}
    (h : originOf (fetches ++ [new]) id = some origin) :
    originOf fetches id = some origin ∨ origin = (new.key, new.epoch) := by
  unfold originOf at h ⊢
  rcases lt_trichotomy id fetches.length with hlt | rfl | hgt
  · rw [getElem?_append_left hlt] at h
    exact .inl h
  · rw [getElem?_concat_length] at h
    exact .inr (Option.some.inj h).symm
  · rw [getElem?_eq_none (by simp; omega)] at h
    cases h

theorem exists_fetch {origin : κ × ℕ}
    (h : originOf fetches id = some origin) :
    ∃ fetch, fetches[id]? = some fetch ∧ fetch.key = origin.1 := by
  obtain ⟨fetch, hfetch, rfl⟩ := Option.map_eq_some_iff.mp h
  exact ⟨fetch, hfetch, rfl⟩

end Fetches

namespace Coherent

variable {policy : Policy κ ν ω ε} {sys : System κ ν ω ε}

theorem empty (policy : Policy κ ν ω ε) : Coherent policy ({} : System κ ν ω ε) where
  counted := ⟨nodup_nil, rfl, zero_le _, zero_le _⟩
  fresh := rfl
  past := fun _ _ _ h => (nomatch h)
  entries := fun _ h => (nomatch h)
  pendingKeys := nodup_nil
  pending := fun _ h => (nomatch h)
  flights := nodup_nil
  allocated := fun _ h => (nomatch h)
  bounded := zero_le _
  unfinished := fun _ h => (nomatch h)
  reads := fun _ h => (nomatch h)

theorem alive_of_unfinished {id : ℕ} (h : sys.unfinished id = true) : sys.alive id = true := by
  unfold System.unfinished at h
  unfold System.alive
  cases hfetch : sys.fetches[id]? with
  | none =>
    rw [hfetch] at h
    cases h
  | some fetch =>
    rw [hfetch] at h
    exact (Bool.and_eq_true_iff.mp h).1

theorem unfinished_wait {id i : ℕ} {f : ℕ → ℕ} {sys' : System κ ν ω ε}
    (hfetches : sys'.fetches = sys.wait i f)
    (hmono : ∀ fetch, sys.fetches[i]? = some fetch → 0 < f fetch.waiters → 0 < fetch.waiters)
    (h : sys'.unfinished id = true) : sys.unfinished id = true := by
  unfold System.unfinished at h ⊢
  rw [hfetches, System.wait, getElem?_modify, Option.map_eq_map] at h
  cases hfetch : sys.fetches[id]? with
  | none =>
    rw [hfetch] at h
    cases h
  | some fetch =>
    rw [hfetch] at h
    simp only [Option.map_some, Option.any_some, Bool.and_eq_true, decide_eq_true_eq] at h ⊢
    split at h
    · subst i
      exact ⟨hmono fetch hfetch h.1, h.2⟩
    · exact h

theorem unfinished_set {id i : ℕ} {fetch : Fetch κ ν ε} {sys' : System κ ν ω ε}
    (hfetch : sys.fetches[i]? = some fetch) (result : Except ε ν)
    (hfetches : sys'.fetches = sys.fetches.set i { fetch with result := some result })
    (h : sys'.unfinished id = true) : id ≠ i ∧ sys.unfinished id = true := by
  unfold System.unfinished at h ⊢
  rw [hfetches] at h
  by_cases hi : i = id
  · subst hi
    rw [getElem?_set_self (List.getElem?_eq_some_iff.mp hfetch).1] at h
    simp at h
  · rw [getElem?_set_ne hi] at h
    exact ⟨Ne.symm hi, h⟩

theorem swept (h : Coherent policy sys) (lawful : Lawful policy) :
    Coherent policy { sys with state := sys.swept policy } := by
  have hclean := lawful.prepare sys.now sys.state h.counted
  have hepoch : (sys.swept policy).epoch = sys.state.epoch := hclean.epoch
  refine ⟨⟨h.counted.keys.sublist (hclean.entries.map _), hclean.bytes, ?_,
      le_trans hclean.entries.length_le h.counted.maxEntries⟩,
    hclean.nextFlight.trans h.fresh, fun id key epoch hid => hepoch ▸ h.past id key epoch hid,
    fun e he => ?_, ?_, fun flight hflight => ?_, ?_, fun id hid => ?_, ?_, fun id hid => ?_,
    h.reads⟩
  · refine le_trans ?_ h.counted.maxBytes
    show (policy.prepare sys.now sys.state).bytes ≤ _
    rw [hclean.bytes, h.counted.sum]
    exact (hclean.entries.map _).sum_le_sum fun _ _ => zero_le _
  · rw [hepoch]
    exact h.entries e (hclean.entries.subset he)
  · have hsub : (sys.swept policy).pending.Sublist sys.state.pending :=
      hclean.pending ▸ filter_sublist
    exact h.pendingKeys.sublist (hsub.map _)
  · rw [hepoch]
    exact h.pending flight (hclean.pending ▸ (mem_filter.mp hflight).1)
  · exact (hclean.flights ▸ h.flights).sublist filter_sublist
  · exact h.allocated id (hclean.flights ▸ (mem_filter.mp hid).1)
  · exact le_trans (length_filter_le _ _) (hclean.flights ▸ h.bounded)
  · exact mem_filter.mpr
      ⟨hclean.flights.symm ▸ h.unfinished id hid, alive_of_unfinished hid⟩

theorem leave (h : Coherent policy sys) {i : ℕ} {read : Read κ ν ω ε}
    (hread : sys.reads[i]? = some read) (stage : Stage ω ε) :
    Coherent policy (sys.leave i read stage) := by
  have hmem := mem_of_getElem? hread
  have hreads : ∀ {other : Read κ ν ω ε}, other ∈ sys.reads.set i { read with stage } →
      other.fence = other.begun ∧
        originOf sys.fetches other.source.flight = some (other.key, other.begun) := by
    intro other hother
    rcases mem_or_eq_of_mem_set hother with hother | rfl
    · exact h.reads other hother
    · exact h.reads read hmem
  cases hsource : read.source with
  | entry entry =>
    simp only [System.leave, hsource]
    exact ⟨h.counted, h.fresh, h.past, h.entries, h.pendingKeys, h.pending, h.flights,
      h.allocated, h.bounded, h.unfinished, fun other hother => hreads (hsource ▸ hother)⟩
  | fetch id =>
    simp only [System.leave, hsource]
    have hlength : (sys.wait id (· - 1)).length = sys.fetches.length := length_modify ..
    have horigins : ∀ j, originOf (sys.wait id (· - 1)) j = originOf sys.fetches j :=
      fun _ => originOf_wait
    refine ⟨h.counted, h.fresh.trans hlength.symm,
      fun j key epoch hj => h.past j key epoch ((horigins j).symm.trans hj), fun e he => ?_,
      h.pendingKeys,
      fun flight hflight => ?_, h.flights, fun j hj => ?_, h.bounded, fun j hj => ?_,
      fun other hother => ?_⟩
    · exact (horigins _).trans (h.entries e he)
    · exact ⟨(h.pending flight hflight).1, (horigins _).trans (h.pending flight hflight).2⟩
    · exact lt_of_lt_of_eq (h.allocated j hj) hlength.symm
    · refine h.unfinished j (unfinished_wait (i := id) (f := (· - 1)) rfl ?_ hj)
      exact fun _ _ hpos => lt_of_lt_of_le hpos (sub_le _ _)
    · obtain ⟨hfence, horigin⟩ := hreads (hsource ▸ hother)
      exact ⟨hfence, (horigins _).trans horigin⟩

theorem invalidate (h : Coherent policy sys) : Coherent policy sys.invalidate where
  counted := ⟨nodup_nil, rfl, zero_le _, zero_le _⟩
  fresh := h.fresh
  past := fun id key epoch hid => le_succ_of_le (h.past id key epoch hid)
  entries := fun _ h => (nomatch h)
  pendingKeys := nodup_nil
  pending := fun _ h => (nomatch h)
  flights := h.flights.sublist filter_sublist
  allocated := fun id hid => h.allocated id (mem_filter.mp hid).1
  bounded := le_trans (length_filter_le _ _) h.bounded
  unfinished := fun id hid =>
    mem_filter.mpr ⟨h.unfinished id hid, alive_of_unfinished hid⟩
  reads := h.reads

theorem unfinished_le (h : Coherent policy sys) :
    ((range sys.fetches.length).filter sys.unfinished).length ≤ policy.maxFlights := by
  refine le_trans ?_ h.bounded
  refine (subperm_of_subset (nodup_range.filter _) fun id hid => ?_).length_le
  exact h.unfinished id (mem_filter.mp hid).2

variable [DecidableEq κ]

theorem hit (h : Coherent policy sys) {key : κ} {entry : Entry ν}
    (found : get key sys.state.entries = some entry) (clock : ℕ) :
    Coherent policy
      { sys with
        state := { sys.state with
          clock, entries := put key { entry with lastUsed := clock } sys.state.entries },
        reads := sys.reads ++
          [{ key, source := .entry entry, begun := sys.state.epoch,
             fence := sys.state.epoch }] } := by
  have hentry := h.entries _ (Redis.mem_of_get found)
  refine ⟨⟨Redis.nodup_put h.counted.keys, ?_, h.counted.maxBytes, ?_⟩, h.fresh, h.past,
    fun e he => ?_, h.pendingKeys, h.pending, h.flights, h.allocated, h.bounded,
    h.unfinished, fun read hread => ?_⟩
  · show sys.state.bytes = total (put key _ sys.state.entries)
    rw [h.counted.sum]
    exact (Redis.sum_put_of_some (c := Entry.bytes) (v := { entry with lastUsed := clock })
      h.counted.keys found rfl).symm
  · show (put key _ sys.state.entries).length ≤ _
    rw [Redis.put_of_some found, length_map]
    exact h.counted.maxEntries
  · rcases Redis.mem_put he with rfl | he
    · exact hentry
    · exact h.entries e he
  · rcases mem_append.mp hread with hread | hread
    · exact h.reads read hread
    · obtain rfl := mem_singleton.mp hread
      exact ⟨rfl, hentry⟩

theorem joined (h : Coherent policy sys) {key : κ} {id epoch : ℕ}
    (found : get key sys.state.pending = some (id, epoch)) (halive : sys.alive id = true)
    (fences : Bool) :
    Coherent policy
      { sys with
        fetches := sys.wait id (· + 1),
        reads := sys.reads ++
          [{ key, source := .fetch id, begun := sys.state.epoch,
             fence := if fences then epoch else sys.state.epoch }] } := by
  obtain ⟨hepoch, hfetch⟩ := h.pending _ (Redis.mem_of_get found)
  have hlength : (sys.wait id (· + 1)).length = sys.fetches.length := length_modify ..
  refine ⟨h.counted, h.fresh.trans hlength.symm,
    fun i key epoch hi => h.past i key epoch (originOf_wait.symm.trans hi), fun e he => ?_,
    h.pendingKeys,
    fun flight hflight => ?_, h.flights, fun i hi => ?_, h.bounded, fun i hi => ?_,
    fun read hread => ?_⟩
  · exact originOf_wait.trans (h.entries e he)
  · exact ⟨(h.pending flight hflight).1, originOf_wait.trans (h.pending flight hflight).2⟩
  · exact lt_of_lt_of_eq (h.allocated i hi) hlength.symm
  · refine h.unfinished i (unfinished_wait rfl (fun fetch hfetch _ => ?_) hi)
    unfold System.alive at halive
    rw [hfetch] at halive
    exact of_decide_eq_true halive
  · rcases mem_append.mp hread with hread | hread
    · exact ⟨(h.reads read hread).1, originOf_wait.trans (h.reads read hread).2⟩
    · obtain rfl := mem_singleton.mp hread
      refine ⟨?_, originOf_wait.trans hfetch⟩
      cases fences
      · rfl
      · exact hepoch

theorem started (h : Coherent policy sys) {key : κ}
    (hroom : ¬sys.state.flights.length ≥ policy.maxFlights) :
    Coherent policy
      { sys with
        state := { sys.state with
          nextFlight := sys.state.nextFlight + 1,
          flights := sys.state.flights ++ [sys.state.nextFlight],
          pending := put key (sys.state.nextFlight, sys.state.epoch) sys.state.pending },
        fetches := sys.fetches ++ [{ key, epoch := sys.state.epoch }],
        reads := sys.reads ++
          [{ key, source := .fetch sys.state.nextFlight, begun := sys.state.epoch,
             fence := sys.state.epoch }] } := by
  have hnew : originOf (sys.fetches ++ [({ key, epoch := sys.state.epoch } : Fetch κ ν ε)])
      sys.state.nextFlight = some (key, sys.state.epoch) := by
    rw [h.fresh]
    exact originOf_new _
  refine ⟨h.counted, ?_, fun id _ epoch hid => ?_, fun e he => originOf_append (h.entries e he) _,
    Redis.nodup_put h.pendingKeys, fun flight hflight => ?_, ?_, fun id hid => ?_, ?_,
    fun id hid => ?_, fun read hread => ?_⟩
  · simp [h.fresh]
  · rcases originOf_append_cases hid with hid | hnew
    · exact h.past id _ epoch hid
    · exact le_of_eq (Prod.mk.inj hnew).2
  · rcases Redis.mem_put hflight with rfl | hflight
    · exact ⟨rfl, hnew⟩
    · exact ⟨(h.pending flight hflight).1, originOf_append (h.pending flight hflight).2 _⟩
  · refine nodup_append'.mpr ⟨h.flights, nodup_singleton _, fun id hid hnew => ?_⟩
    have hlt := h.allocated id hid
    rw [mem_singleton.mp hnew, h.fresh] at hlt
    exact absurd hlt (lt_irrefl _)
  · simp only [length_append, length_singleton]
    rcases mem_append.mp hid with hid | hid
    · exact lt_succ_of_lt (h.allocated id hid)
    · rw [mem_singleton.mp hid, h.fresh]
      exact lt_succ_self _
  · simp only [length_append, length_singleton]
    omega
  · refine mem_append.mpr ?_
    by_cases heq : id = sys.fetches.length
    · exact .inr (mem_singleton.mpr (heq.trans h.fresh.symm))
    · refine .inl (h.unfinished id ?_)
      unfold System.unfinished at hid ⊢
      rcases Nat.lt_or_ge id sys.fetches.length with hlt | hge
      · rwa [getElem?_append_left hlt] at hid
      · rw [getElem?_eq_none (by simp; omega)] at hid
        cases hid
  · rcases mem_append.mp hread with hread | hread
    · exact ⟨(h.reads read hread).1, originOf_append (h.reads read hread).2 _⟩
    · obtain rfl := mem_singleton.mp hread
      exact ⟨rfl, hnew⟩

theorem read (h : Coherent policy sys) (lawful : Lawful policy) (key : κ) :
    Coherent policy (sys.read policy key) := by
  have hswept := h.swept lawful
  unfold System.read
  cases hentry : get key (sys.swept policy).entries with
  | some entry =>
    obtain ⟨clock, htouch⟩ := lawful.touch (sys.swept policy)
    simp only [hentry, htouch]
    exact hswept.hit hentry clock
  | none =>
    cases hpending : get key (sys.swept policy).pending with
    | some flight =>
      obtain ⟨id, epoch⟩ := flight
      simp only [hentry, hpending]
      have halive : sys.alive id = true :=
        (mem_filter.mp (Redis.mem_of_get hpending)).2
      exact hswept.joined hpending halive policy.fencesFlights
    | none =>
      simp only [hentry, hpending]
      split
      · exact ⟨hswept.counted, hswept.fresh, hswept.past, hswept.entries, hswept.pendingKeys,
          hswept.pending, hswept.flights, hswept.allocated, hswept.bounded,
          hswept.unfinished, hswept.reads⟩
      · rename_i hroom
        exact hswept.started hroom

/-- **A fetch completes.**  Its value is stored only in the epoch of the fetch. -/
theorem complete (h : Coherent policy sys) (lawful : Lawful policy) (id : ℕ)
    (result : Except ε ν) : Coherent policy (sys.complete policy id result) := by
  unfold System.complete
  split
  · rename_i fetch hfetch
    split
    · -- without the new entry, in whichever way the fetch ends
      have hplain : ∀ (answer : Except ε ν) (pending : List (κ × ℕ × ℕ)),
          pending.Sublist sys.state.pending →
          Coherent policy { sys with
            state := { sys.state with flights := sys.state.flights.erase id, pending },
            fetches := sys.fetches.set id { fetch with result := some answer } } := by
        intro answer pending hsub
        refine ⟨h.counted, h.fresh.trans length_set.symm,
          fun i key epoch hi => h.past i key epoch ((originOf_set hfetch _).symm.trans hi),
          fun e he => (originOf_set hfetch _).trans (h.entries e he),
          h.pendingKeys.sublist (hsub.map _), fun flight hflight => ?_, h.flights.erase id,
          fun i hi => ?_, ?_, fun i hi => ?_, fun read hread => ?_⟩
        · obtain ⟨hepoch, horigin⟩ := h.pending flight (hsub.subset hflight)
          exact ⟨hepoch, (originOf_set hfetch _).trans horigin⟩
        · exact lt_of_lt_of_eq (h.allocated i (mem_of_mem_erase hi)) length_set.symm
        · exact le_trans (length_erase_le ..) h.bounded
        · obtain ⟨hne, hold⟩ := unfinished_set hfetch answer rfl hi
          exact (mem_erase_of_ne hne).mpr (h.unfinished i hold)
        · exact ⟨(h.reads read hread).1, (originOf_set hfetch _).trans (h.reads read hread).2⟩
      unfold System.finish
      split
      · rename_i hvalid
        cases result with
        | error e => exact hplain _ _ filter_sublist
        | ok value =>
          cases hadmits : policy.admits sys.now value with
          | none =>
            simp only [hadmits]
            exact hplain _ _ filter_sublist
          | some admitted =>
            obtain ⟨expires, bytes⟩ := admitted
            simp only [hadmits]
            have hold := hplain (.ok value) (del fetch.key sys.state.pending)
              filter_sublist
            obtain ⟨hcounted, hmem⟩ := lawful.store sys.now value expires bytes hadmits
              fetch.key sys.state.entries sys.state.bytes
              { value, expires, lastUsed := sys.state.clock + 1, bytes, flight := id } rfl
              h.counted
            refine ⟨hcounted, hold.fresh, hold.past, fun e he => ?_, hold.pendingKeys, hold.pending,
              hold.flights, hold.allocated, hold.bounded, hold.unfinished, hold.reads⟩
            rcases hmem e he with rfl | he
            · -- the epoch of the fetch is the current one
              have hepoch := of_decide_eq_true (Bool.and_eq_true_iff.mp hvalid).1
              refine (originOf_set hfetch _).trans ?_
              simp only [originOf, hfetch, Option.map_some, hepoch]
            · exact hold.entries e he
      · exact hplain _ _ (Sublist.refl _)
    · exact h
  · exact h

theorem step (h : Coherent policy sys) (lawful : Lawful policy) (event : Event κ ν ε) :
    Coherent policy (Fenced.step policy event sys) := by
  cases event with
  | read key => exact h.read lawful key
  | complete id result => exact h.complete lawful id result
  | deliver i =>
    simp only [Fenced.step, System.deliver]
    split
    · rename_i read hread
      split
      · exact h.leave hread _
      · exact h
    · exact h
  | cancel i =>
    simp only [Fenced.step, System.cancel]
    split
    · rename_i read hread
      split
      · exact h.leave hread _
      · exact h
    · exact h
  | invalidate => exact h.invalidate
  | tick ms =>
    exact ⟨h.counted, h.fresh, h.past, h.entries, h.pendingKeys, h.pending, h.flights,
      h.allocated, h.bounded, h.unfinished, h.reads⟩

theorem run (lawful : Lawful policy) (events : List (Event κ ν ε)) :
    Coherent policy (Fenced.run policy events ({} : System κ ν ω ε)) :=
  Relational.runAll_invariant (fun event _ h => h.step lawful event) events _ (empty policy)

end Coherent

/-! ## What comes after an invalidation -/

/-- What a step does to the epoch, the fetches and the reads. -/
structure Effect (sys sys' : System κ ν ω ε) : Prop where
  epoch : sys.state.epoch ≤ sys'.state.epoch
  fetches : ∀ id origin, originOf sys.fetches id = some origin →
    originOf sys'.fetches id = some origin
  reads : ∀ (i : ℕ) (read : Read κ ν ω ε), sys'.reads[i]? = some read →
    (∃ old : Read κ ν ω ε, sys.reads[i]? = some old ∧ old.begun = read.begun) ∨
      sys.state.epoch = read.begun

section Effects

variable {sys : System κ ν ω ε}

theorem Effect.refl : Effect sys sys :=
  ⟨le_refl _, fun _ _ h => h, fun _ read h => .inl ⟨read, h, rfl⟩⟩

theorem reads_append {new : Read κ ν ω ε} (hnew : sys.state.epoch = new.begun) (i : ℕ)
    (read : Read κ ν ω ε) (h : (sys.reads ++ [new])[i]? = some read) :
    (∃ old : Read κ ν ω ε, sys.reads[i]? = some old ∧ old.begun = read.begun) ∨
      sys.state.epoch = read.begun := by
  rcases Nat.lt_or_ge i sys.reads.length with hi | hi
  · rw [getElem?_append_left hi] at h
    exact .inl ⟨read, h, rfl⟩
  · rw [getElem?_append_right hi] at h
    obtain rfl := mem_singleton.mp (mem_of_getElem? h)
    exact .inr hnew

theorem leave_effect {i : ℕ} {read : Read κ ν ω ε} (hread : sys.reads[i]? = some read)
    (stage : Stage ω ε) : Effect sys (sys.leave i read stage) := by
  refine ⟨le_refl _, fun id origin hid => ?_, fun j other hother => .inl ?_⟩
  · unfold System.leave
    cases read.source with
    | entry entry => exact hid
    | fetch flight => exact (originOf_wait (i := flight) (f := (· - 1))).trans hid
  · have hother' : (sys.reads.set i { read with stage })[j]? = some other := hother
    by_cases hj : i = j
    · subst hj
      rw [getElem?_set_self (List.getElem?_eq_some_iff.mp hread).1] at hother'
      exact ⟨read, hread, by rw [← Option.some.inj hother']⟩
    · rw [getElem?_set_ne hj] at hother'
      exact ⟨other, hother', rfl⟩

variable [DecidableEq κ] {policy : Policy κ ν ω ε}

theorem read_effect (h : Coherent policy sys) (lawful : Lawful policy) (key : κ) :
    Effect sys (sys.read policy key) := by
  have hepoch : (sys.swept policy).epoch = sys.state.epoch :=
    (lawful.prepare sys.now sys.state h.counted).epoch
  unfold System.read
  cases hentry : get key (sys.swept policy).entries with
  | some entry =>
    obtain ⟨clock, htouch⟩ := lawful.touch (sys.swept policy)
    simp only [hentry, htouch]
    exact ⟨le_of_eq hepoch.symm, fun _ _ h => h, reads_append hepoch.symm⟩
  | none =>
    cases hpending : get key (sys.swept policy).pending with
    | some flight =>
      obtain ⟨id, epoch⟩ := flight
      simp only [hentry, hpending]
      exact ⟨le_of_eq hepoch.symm, fun _ _ h => originOf_wait.trans h,
        reads_append hepoch.symm⟩
    | none =>
      simp only [hentry, hpending]
      split
      · exact ⟨le_of_eq hepoch.symm, fun _ _ h => h, fun _ read h => .inl ⟨read, h, rfl⟩⟩
      · exact ⟨le_of_eq hepoch.symm, fun _ _ h => originOf_append h _,
          reads_append hepoch.symm⟩

theorem finish_epoch {id now : ℕ} {fetch : Fetch κ ν ε} {result : Except ε ν} {state : State κ ν} :
    (System.finish policy id fetch result now state).2.epoch = state.epoch := by
  simp only [System.finish]
  split
  · split
    · rfl
    · split <;> rfl
  · rfl

theorem complete_effect (id : ℕ) (result : Except ε ν) :
    Effect sys (sys.complete policy id result) := by
  unfold System.complete
  split
  · rename_i fetch hfetch
    split
    · exact ⟨le_of_eq finish_epoch.symm, fun _ _ h => (originOf_set hfetch _).trans h,
        fun _ read h => .inl ⟨read, h, rfl⟩⟩
    · exact .refl
  · exact .refl

theorem step_effect (h : Coherent policy sys) (lawful : Lawful policy) (event : Event κ ν ε) :
    Effect sys (step policy event sys) := by
  cases event with
  | read key => exact read_effect h lawful key
  | complete id result => exact complete_effect id result
  | deliver i =>
    simp only [step, System.deliver]
    split
    · rename_i read hread
      split
      · exact leave_effect hread _
      · exact .refl
    · exact .refl
  | cancel i =>
    simp only [step, System.cancel]
    split
    · rename_i read hread
      split
      · exact leave_effect hread _
      · exact .refl
    · exact .refl
  | invalidate =>
    exact ⟨le_succ _, fun _ _ h => h, fun _ read h => .inl ⟨read, h, rfl⟩⟩
  | tick ms => exact ⟨le_refl _, fun _ _ h => h, fun _ read h => .inl ⟨read, h, rfl⟩⟩

end Effects

/-- The fetches below `n` are of earlier epochs than `epoch`, and the reads from `m` on are not. -/
structure Since (n m epoch : ℕ) (sys : System κ ν ω ε) : Prop where
  now : epoch ≤ sys.state.epoch
  fetches : ∀ id < n, ∃ key, ∃ past < epoch, originOf sys.fetches id = some (key, past)
  reads : ∀ (i : ℕ) (read : Read κ ν ω ε), m ≤ i → sys.reads[i]? = some read → epoch ≤ read.begun

theorem Since.step {n m epoch : ℕ} {sys sys' : System κ ν ω ε} (h : Since n m epoch sys)
    (heffect : Effect sys sys') : Since n m epoch sys' := by
  refine ⟨le_trans h.now heffect.epoch, fun id hid => ?_, fun i read hi hread => ?_⟩
  · obtain ⟨key, past, hpast, horigin⟩ := h.fetches id hid
    exact ⟨key, past, hpast, heffect.fetches id _ horigin⟩
  · rcases heffect.reads i read hread with ⟨old, hold, hbegun⟩ | hbegun
    · exact hbegun ▸ h.reads i old hi hold
    · exact hbegun ▸ h.now

theorem Since.le_of_originOf {n m epoch id late : ℕ} {key : κ} {sys : System κ ν ω ε}
    (h : Since n m epoch sys) (hid : originOf sys.fetches id = some (key, late))
    (hlate : epoch ≤ late) : n ≤ id := by
  by_contra hlt
  obtain ⟨_, past, hpast, heq⟩ := h.fetches id (Nat.lt_of_not_le hlt)
  rw [hid] at heq
  have hsame := (Prod.mk.inj (Option.some.inj heq)).2
  omega

/-! ## Where an answer is from -/

section Provenance

variable (got : ℕ → Except ε ν → Prop) (policy : Policy κ ν ω ε)

/-- The answer is made of what the fetch got, or of what is left of it if it came too late. -/
def Delivers (id : ℕ) (answer : Except ε ω) : Prop :=
  ∃ result kept current expires now, got id result ∧ (kept = result ∨ kept = policy.refuse result) ∧
    answer = policy.deliver current expires now kept

/-- Values are what fetches got; `got` is the history of the results. -/
structure Traced (sys : System κ ν ω ε) : Prop where
  entries : ∀ e ∈ sys.state.entries, got e.2.flight (.ok e.2.value)
  results : ∀ (id : ℕ) (fetch : Fetch κ ν ε) (kept : Except ε ν), sys.fetches[id]? = some fetch →
    fetch.result = some kept → ∃ result, got id result ∧
      (kept = result ∨ kept = policy.refuse result)
  sources : ∀ read ∈ sys.reads, ∀ entry, read.source = .entry entry →
    got entry.flight (.ok entry.value)
  answers : ∀ read ∈ sys.reads, ∀ answer, read.stage = .answered answer →
    Delivers got policy read.source.flight answer

end Provenance

namespace Traced

variable {got : ℕ → Except ε ν → Prop} {policy : Policy κ ν ω ε} {sys : System κ ν ω ε}

theorem mono {more : ℕ → Except ε ν → Prop} (grows : ∀ {id result}, got id result → more id result)
    (h : Traced got policy sys) : Traced more policy sys := by
  refine ⟨fun e he => grows (h.entries e he), fun id fetch kept hfetch hkept => ?_,
    fun read hread entry hsource => grows (h.sources read hread entry hsource),
    fun read hread answer hstage => ?_⟩
  · obtain ⟨result, hgot, hresult⟩ := h.results id fetch kept hfetch hkept
    exact ⟨result, grows hgot, hresult⟩
  · obtain ⟨result, kept, current, expires, now, hgot, hrest⟩ := h.answers read hread answer hstage
    exact ⟨result, kept, current, expires, now, grows hgot, hrest⟩

theorem waited (h : Traced got policy sys) (i : ℕ) (f : ℕ → ℕ) (id : ℕ) (fetch : Fetch κ ν ε)
    (kept : Except ε ν) (hfetch : (sys.wait i f)[id]? = some fetch)
    (hkept : fetch.result = some kept) :
    ∃ result, got id result ∧ (kept = result ∨ kept = policy.refuse result) := by
  rw [System.wait, getElem?_modify, Option.map_eq_map] at hfetch
  obtain ⟨old, hold, rfl⟩ := Option.map_eq_some_iff.mp hfetch
  refine h.results id old kept hold ?_
  rw [← hkept]
  split <;> rfl

theorem leave (h : Traced got policy sys) {i : ℕ} {read : Read κ ν ω ε}
    (hread : sys.reads[i]? = some read) {stage : Stage ω ε}
    (hstage : ∀ answer, stage = .answered answer → Delivers got policy read.source.flight answer) :
    Traced got policy (sys.leave i read stage) := by
  have hmem := mem_of_getElem? hread
  refine ⟨h.entries, ?_, fun other hother => ?_, fun other hother => ?_⟩
  · unfold System.leave
    cases read.source with
    | entry entry => exact h.results
    | fetch flight => exact h.waited flight (· - 1)
  · rcases mem_or_eq_of_mem_set hother with hother | rfl
    · exact h.sources other hother
    · exact h.sources read hmem
  · rcases mem_or_eq_of_mem_set hother with hother | rfl
    · exact h.answers other hother
    · exact hstage

theorem deliver (h : Traced got policy sys) (i : ℕ) : Traced got policy (sys.deliver policy i) := by
  unfold System.deliver
  split
  · rename_i read hread
    split
    · rename_i answer _ hanswer
      refine h.leave hread fun _ heq => ?_
      obtain rfl := Stage.answered.inj heq
      unfold System.answer? at hanswer
      cases hsource : read.source with
      | entry entry =>
        simp only [hsource, Option.some.injEq] at hanswer
        exact ⟨_, _, _, _, _, h.sources read (mem_of_getElem? hread) entry hsource, .inl rfl,
          hanswer.symm⟩
      | fetch id =>
        simp only [hsource] at hanswer
        obtain ⟨kept, hkept, rfl⟩ := Option.map_eq_some_iff.mp hanswer
        obtain ⟨fetch, hfetch, hresult⟩ := Option.bind_eq_some_iff.mp hkept
        obtain ⟨result, hgot, hrest⟩ := h.results id fetch kept hfetch hresult
        exact ⟨result, kept, _, _, _, hgot, hrest, rfl⟩
    · exact h
  · exact h

/-- A read begins: what it is answered with is not known yet. -/
theorem begun (h : Traced got policy sys) {new : Read κ ν ω ε} (waiting : new.stage = .waiting)
    (source : ∀ entry, new.source = .entry entry → got entry.flight (.ok entry.value))
    {state : State κ ν} (entries : ∀ e ∈ state.entries, got e.2.flight (.ok e.2.value))
    {fetches : List (Fetch κ ν ε)}
    (results : ∀ (id : ℕ) (fetch : Fetch κ ν ε) (kept : Except ε ν), fetches[id]? = some fetch →
      fetch.result = some kept →
        ∃ result, got id result ∧ (kept = result ∨ kept = policy.refuse result)) :
    Traced got policy { sys with state, fetches, reads := sys.reads ++ [new] } := by
  refine ⟨entries, results, fun read hread => ?_, fun read hread answer hanswer => ?_⟩
  · rcases mem_append.mp hread with hread | hread
    · exact h.sources read hread
    · obtain rfl := mem_singleton.mp hread
      exact source
  · rcases mem_append.mp hread with hread | hread
    · exact h.answers read hread answer hanswer
    · obtain rfl := mem_singleton.mp hread
      cases waiting.symm.trans hanswer

theorem started (h : Traced got policy sys) {new : Fetch κ ν ε} (running : new.result = none)
    (id : ℕ) (fetch : Fetch κ ν ε) (kept : Except ε ν)
    (hfetch : (sys.fetches ++ [new])[id]? = some fetch) (hkept : fetch.result = some kept) :
    ∃ result, got id result ∧ (kept = result ∨ kept = policy.refuse result) := by
  rcases Nat.lt_or_ge id sys.fetches.length with hlt | hge
  · rw [getElem?_append_left hlt] at hfetch
    exact h.results id fetch kept hfetch hkept
  · rw [getElem?_append_right hge] at hfetch
    obtain rfl := mem_singleton.mp (mem_of_getElem? hfetch)
    cases running.symm.trans hkept

variable [DecidableEq κ]

theorem read (h : Traced got policy sys) (lawful : Lawful policy)
    (counted : Counted policy sys.state.entries sys.state.bytes) (key : κ) :
    Traced got policy (sys.read policy key) := by
  have hsub := (lawful.prepare sys.now sys.state counted).entries.subset
  have hentries : ∀ e ∈ (sys.swept policy).entries, got e.2.flight (.ok e.2.value) :=
    fun e he => h.entries e (hsub he)
  unfold System.read
  cases hentry : get key (sys.swept policy).entries with
  | some entry =>
    obtain ⟨clock, htouch⟩ := lawful.touch (sys.swept policy)
    simp only [hentry, htouch]
    have hgot := hentries _ (Redis.mem_of_get hentry)
    refine h.begun rfl (fun other hother => ?_) (fun e he => ?_) h.results
    · obtain rfl := Source.entry.inj hother
      exact hgot
    · rcases Redis.mem_put he with rfl | he
      · exact hgot
      · exact hentries e he
  | none =>
    cases hpending : get key (sys.swept policy).pending with
    | some flight =>
      obtain ⟨id, epoch⟩ := flight
      simp only [hentry, hpending]
      exact h.begun rfl (fun _ hother => by cases hother) hentries (h.waited id (· + 1))
    | none =>
      simp only [hentry, hpending]
      split
      · exact ⟨hentries, h.results, h.sources, h.answers⟩
      · apply h.begun
        · rfl
        · exact fun _ hother => by cases hother
        · exact hentries
        · exact h.started rfl

theorem complete (h : Traced got policy sys) (lawful : Lawful policy)
    (counted : Counted policy sys.state.entries sys.state.bytes) (id : ℕ) (result : Except ε ν)
    (hgot : sys.unfinished id = true → got id result) :
    Traced got policy (sys.complete policy id result) := by
  unfold System.complete
  split
  · rename_i fetch hfetch
    split
    · rename_i hunfinished
      have hgot := hgot hunfinished
      have hresults (answer : Except ε ν)
          (hanswer : answer = result ∨ answer = policy.refuse result)
          (j : ℕ) (other : Fetch κ ν ε) (kept : Except ε ν)
          (hother : (sys.fetches.set id { fetch with result := some answer })[j]? = some other)
          (hkept : other.result = some kept) :
          ∃ result, got j result ∧ (kept = result ∨ kept = policy.refuse result) := by
        by_cases hj : id = j
        · subst hj
          rw [getElem?_set_self (List.getElem?_eq_some_iff.mp hfetch).1] at hother
          obtain rfl := Option.some.inj hother
          obtain rfl := Option.some.inj hkept
          exact ⟨result, hgot, hanswer⟩
        · rw [getElem?_set_ne hj] at hother
          exact h.results j other kept hother hkept
      unfold System.finish
      split
      · cases result with
        | error e => exact ⟨h.entries, hresults _ (.inl rfl), h.sources, h.answers⟩
        | ok value =>
          cases hadmits : policy.admits sys.now value with
          | none =>
            simp only [hadmits]
            exact ⟨h.entries, hresults _ (.inl rfl), h.sources, h.answers⟩
          | some admitted =>
            obtain ⟨expires, bytes⟩ := admitted
            simp only [hadmits]
            refine ⟨fun e he => ?_, hresults _ (.inl rfl), h.sources, h.answers⟩
            rcases (lawful.store sys.now value expires bytes hadmits fetch.key sys.state.entries
              sys.state.bytes _ rfl counted).2 e he with rfl | he
            · exact hgot
            · exact h.entries e he
      · exact ⟨h.entries, hresults _ (.inr rfl), h.sources, h.answers⟩
    · exact h
  · exact h

/-- **One step keeps the values traced**, if the history has what the step brings. -/
theorem step (h : Traced got policy sys) (lawful : Lawful policy)
    (counted : Counted policy sys.state.entries sys.state.bytes) (event : Event κ ν ε)
    (hgot : ∀ id result, event = .complete id result → sys.unfinished id = true → got id result) :
    Traced got policy (Fenced.step policy event sys) := by
  cases event with
  | read key => exact h.read lawful counted key
  | complete id result => exact h.complete lawful counted id result (hgot id result rfl)
  | deliver i => exact h.deliver i
  | cancel i =>
    simp only [Fenced.step, System.cancel]
    split
    · rename_i read hread
      split
      · exact h.leave hread fun _ heq => by cases heq
      · exact h
    · exact h
  | invalidate => exact ⟨fun e he => absurd he not_mem_nil, h.results, h.sources, h.answers⟩
  | tick ms => exact ⟨h.entries, h.results, h.sources, h.answers⟩

end Traced

variable [DecidableEq κ] {policy : Policy κ ν ω ε}

/-- **What a fetch of a run got**: the result with which it was completed first. -/
def Got (policy : Policy κ ν ω ε) (events : List (Event κ ν ε)) (id : ℕ) (result : Except ε ν) :
    Prop :=
  ∃ before after, events = before ++ .complete id result :: after ∧
    (run policy before {}).unfinished id = true

theorem traced_run (lawful : Lawful policy) (events : List (Event κ ν ε)) :
    Traced (Got policy events) policy (run policy events {}) := by
  induction events using List.reverseRecOn with
  | nil => constructor <;> simp [run]
  | append_singleton events event ih =>
    have hgrown : Traced (Got policy (events ++ [event])) policy (run policy events {}) := by
      refine ih.mono ?_
      rintro id result ⟨before, after, rfl, hunfinished⟩
      exact ⟨before, after ++ [event], by simp, hunfinished⟩
    have hstep := hgrown.step lawful (Coherent.run lawful events).counted event
      fun id result hevent hunfinished => ⟨events, [], by rw [hevent], hunfinished⟩
    rw [run, Relational.runAll_append]
    exact hstep

/-- The fetch is not one of those of an earlier state, and is of the key. -/
def Later (sys sys' : System κ ν ω ε) (key : κ) (id : ℕ) : Prop :=
  sys.fetches.length ≤ id ∧ ∃ fetch, sys'.fetches[id]? = some fetch ∧ fetch.key = key

/-- **After an invalidation**: a read that begins later is answered with what a fetch of its key
got that was started later, and what is stored is what such a fetch got. -/
theorem fenced_after (lawful : Lawful policy) (before after : List (Event κ ν ε))
    {sys sys' : System κ ν ω ε} (hsys : run policy before {} = sys)
    (hsys' : run policy (before ++ .invalidate :: after) {} = sys') :
    (∀ (i : ℕ) (read : Read κ ν ω ε) (answer : Except ε ω), sys.reads.length ≤ i →
      sys'.reads[i]? = some read → read.stage = .answered answer →
      ∃ id, Later sys sys' read.key id ∧
        Delivers (Got policy (before ++ .invalidate :: after)) policy id answer) ∧
    ∀ e ∈ sys'.state.entries, ∃ id, Later sys sys' e.1 id ∧
      Got policy (before ++ .invalidate :: after) id (.ok e.2.value) := by
  have hbefore : Coherent policy sys := hsys ▸ Coherent.run lawful before
  have hafter : Coherent policy sys' := hsys' ▸ Coherent.run lawful _
  have hstart : Since sys.fetches.length sys.reads.length (sys.state.epoch + 1) sys.invalidate := by
    refine ⟨le_refl _, fun id hid => ?_, fun i read hi hread => ?_⟩
    · have hsome : originOf sys.fetches id =
          some ((sys.fetches.get ⟨id, hid⟩).key, (sys.fetches.get ⟨id, hid⟩).epoch) := by
        simp [originOf, List.getElem?_eq_getElem hid]
      exact ⟨_, _, lt_succ_of_le (hbefore.past id _ _ hsome), hsome⟩
    · have hlt := (List.getElem?_eq_some_iff.mp hread).1
      exact absurd hlt (not_lt.mpr hi)
  have hrun : run policy after sys.invalidate = sys' := by
    rw [← hsys', ← hsys]
    exact (Relational.runAll_append (step policy) before (.invalidate :: after) {}).symm
  have hsince : Coherent policy sys' ∧
      Since sys.fetches.length sys.reads.length (sys.state.epoch + 1) sys' := by
    rw [← hrun]
    exact Relational.runAll_invariant
      (I := fun s => Coherent policy s ∧
        Since sys.fetches.length sys.reads.length (sys.state.epoch + 1) s)
      (fun event s h => ⟨h.1.step lawful event, h.2.step (step_effect h.1 lawful event)⟩) after _
      ⟨hbefore.invalidate, hstart⟩
  have htraced := traced_run lawful (before ++ .invalidate :: after)
  rw [hsys'] at htraced
  refine ⟨fun i read answer hi hread hstage => ?_, fun e he => ?_⟩
  · have hmem := List.mem_of_getElem? hread
    have horigin := (hafter.reads read hmem).2
    exact ⟨_, ⟨hsince.2.le_of_originOf horigin (hsince.2.reads i read hi hread),
      exists_fetch horigin⟩, htraced.answers read hmem answer hstage⟩
  · have horigin := hafter.entries e he
    exact ⟨_, ⟨hsince.2.le_of_originOf horigin hsince.2.now, exists_fetch horigin⟩,
      htraced.entries e he⟩

end KeyCompute.Cache.Fenced
