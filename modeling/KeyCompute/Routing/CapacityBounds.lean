import KeyCompute.Routing.CapacityCache

/-!
# The capacity cache is bounded and gives its slots back

`Sound` counts the reads that hold something: the references of an entry, its mutex and the permits
of the semaphore are exactly those of the reads in progress.  An entry that a read has is in the
map, so two reads of one account have the same mutex.

`Sound` also says where a snapshot is from.  Its parameter `got` is the history: which snapshot of
which account the refresh of which read got, and when that refresh was begun.
-/

namespace KeyCompute.Routing

open Redis (get del)
open CapacityCache Function List

theorem countP_set_add {α : Type} {p : α → Bool} {l : List α} {i : ℕ} {a b : α}
    (h : l[i]? = some a) :
    (l.set i b).countP p + (p a).toNat = l.countP p + (p b).toNat := by
  induction l generalizing i with
  | nil => cases h
  | cons x rest ih =>
    cases i with
    | zero =>
      obtain rfl := Option.some.inj h
      simp only [set_cons_zero, countP_cons]
      cases p x <;> cases p b <;> simp
    | succ i =>
      have hrest := ih (i := i) h
      simp only [set_cons_succ, countP_cons]
      omega

theorem countP_concat {α : Type} {p : α → Bool} {l : List α} {a : α} :
    (l ++ [a]).countP p = l.countP p + (p a).toNat := by
  rw [countP_append, countP_singleton]
  cases p a <;> rfl

def Read.has (e : ℕ) (read : Read) : Bool := read.live && read.entry = e

def Read.owns (e : ℕ) (read : Read) : Bool := read.locks && read.entry = e

theorem Read.live_of_locks {read : Read} (h : read.locks = true) : read.live = true := by
  unfold Read.locks at h
  unfold Read.live
  split at h <;> simp_all

theorem Read.locks_of_refreshes {read : Read} (h : read.refreshes = true) : read.locks = true := by
  unfold Read.refreshes at h
  unfold Read.locks
  split at h <;> simp_all

theorem getElem?_append_cases {α : Type} {l : List α} {i : ℕ} {a b : α}
    (h : (l ++ [b])[i]? = some a) : l[i]? = some a ∨ a = b := by
  rcases lt_or_ge i l.length with hlt | hle
  · rw [getElem?_append_left hlt] at h
    exact .inl h
  · rw [getElem?_append_right hle] at h
    exact .inr (mem_singleton.mp (mem_of_getElem? h))

section History

variable (got : Uuid → ℕ → ℕ → AccountCapacitySnapshot → Prop)

/-- What a read returns: what some refresh of its account got, within the time to live of that
refresh, or what its own refresh got, which began after the read. -/
structure Read.Answer (ttl i : ℕ) (read : Read) (created returned : ℕ)
    (snapshot : AccountCapacitySnapshot) : Prop where
  order : created ≤ returned
  source : ∃ j, got read.account j created snapshot ∧
    (returned - created < ttl ∨ j = i ∧ read.begun ≤ created)

/-- The invariant of the cache, with the history of its refreshes. -/
structure Sound (cache : CapacityCache) : Prop where
  keys : (cache.entries.map Prod.fst).Nodup
  size : cache.entries.length ≤ cache.config.cacheEntries
  pointers : (cache.entries.map Prod.snd).Nodup
  allocated : ∀ e ∈ cache.entries, e.2 < cache.allocated
  live : ∀ read ∈ cache.reads, read.live = true → (read.account, read.entry) ∈ cache.entries
  strong : ∀ e ∈ cache.entries, (cache.heap e.2).strong = 1 + cache.reads.countP (Read.has e.2)
  locked : ∀ e, (cache.heap e).locked.toNat = cache.reads.countP (Read.owns e)
  permits : cache.refreshes + cache.reads.countP Read.refreshes = cache.config.concurrency
  begun : ∀ read ∈ cache.reads, read.begun ≤ cache.now
  sampled : ∀ read ∈ cache.reads, ∀ t, read.stage = .refreshing t → read.begun ≤ t ∧ t ≤ cache.now
  stamped : ∀ e ∈ cache.entries, ∀ t snapshot, (cache.heap e.2).value = some (t, snapshot) →
    t ≤ cache.now ∧ ∃ j, got e.1 j t snapshot
  answered : ∀ i (read : Read) created returned snapshot, cache.reads[i]? = some read →
    read.stage = .returned created returned snapshot →
      read.Answer got cache.config.ttlMs i created returned snapshot

end History

theorem sound_new {config : RoutingCapacityConfig} {cache : CapacityCache}
    (h : new config = .ok cache) (got : Uuid → ℕ → ℕ → AccountCapacitySnapshot → Prop) :
    Sound got cache := by
  unfold new at h
  cases hvalid : config.validate with
  | error message =>
    rw [hvalid] at h
    cases h
  | ok _ =>
    rw [hvalid] at h
    obtain rfl := Except.ok.inj h
    constructor <;> simp

namespace Sound

variable {got : Uuid → ℕ → ℕ → AccountCapacitySnapshot → Prop} {cache : CapacityCache} {i : ℕ}
  {read : Read} {stage : Stage}

/-- The history grows. -/
theorem mono {more : Uuid → ℕ → ℕ → AccountCapacitySnapshot → Prop}
    (grows : ∀ {id j t snapshot}, got id j t snapshot → more id j t snapshot)
    (h : Sound got cache) : Sound more cache := by
  refine { h with stamped := fun e he t snapshot hvalue => ?_, answered := ?_ }
  · obtain ⟨ht, j, hgot⟩ := h.stamped e he t snapshot hvalue
    exact ⟨ht, j, grows hgot⟩
  · intro i read created returned snapshot hread hstage
    obtain ⟨order, j, hgot, hage⟩ := h.answered i read created returned snapshot hread hstage
    exact ⟨order, j, grows hgot, hage⟩

/-- **One read goes on.**  The heap and the semaphore change by what the read takes or gives
back. -/
theorem moved (h : Sound got cache) (hread : cache.reads[i]? = some read) (heap' : ℕ → Entry)
    (refreshes' : ℕ)
    (live : ({ read with stage } : Read).live = true → read.live = true)
    (strong : ∀ e, (heap' e).strong + (read.has e).toNat =
      (cache.heap e).strong + (({ read with stage } : Read).has e).toNat)
    (locked : ∀ e, (heap' e).locked.toNat + (read.owns e).toNat =
      (cache.heap e).locked.toNat + (({ read with stage } : Read).owns e).toNat)
    (permits : refreshes' + ({ read with stage } : Read).refreshes.toNat =
      cache.refreshes + read.refreshes.toNat)
    (sampled : ∀ t, stage = .refreshing t → read.begun ≤ t ∧ t ≤ cache.now)
    (stamped : ∀ e t snapshot, (heap' e).value = some (t, snapshot) →
      (cache.heap e).value = some (t, snapshot))
    (answered : ∀ created returned snapshot, stage = .returned created returned snapshot →
      read.Answer got cache.config.ttlMs i created returned snapshot) :
    Sound got { cache with
      heap := heap', refreshes := refreshes', reads := cache.reads.set i { read with stage } } := by
  have hmem := mem_of_getElem? hread
  have hcases : ∀ other ∈ cache.reads.set i { read with stage },
      other = { read with stage } ∨ other ∈ cache.reads :=
    fun other hother => (mem_or_eq_of_mem_set hother).symm
  have hcount := fun p => countP_set_add (p := p) (b := { read with stage }) hread
  refine { h with
    live := fun other hother hlive => ?_, strong := fun e he => ?_, locked := fun e => ?_,
    permits := ?_, begun := fun other hother => ?_, sampled := fun other hother t ht => ?_,
    stamped := fun e he t snapshot hvalue => h.stamped e he t snapshot (stamped _ _ _ hvalue),
    answered := fun k other created returned snapshot hother hstage => ?_ }
  · rcases hcases other hother with rfl | hother
    · exact h.live read hmem (live hlive)
    · exact h.live other hother hlive
  · have hhas := hcount (Read.has e.2)
    have hstrong := h.strong e he
    have hdelta := strong e.2
    simp only
    omega
  · have howns := hcount (Read.owns e)
    have hlocked := h.locked e
    have hdelta := locked e
    simp only
    omega
  · have hrefreshes := hcount Read.refreshes
    have hpermits := h.permits
    simp only
    omega
  · rcases hcases other hother with rfl | hother
    · exact h.begun read hmem
    · exact h.begun other hother
  · rcases hcases other hother with rfl | hother
    · exact sampled t ht
    · exact h.sampled other hother t ht
  · by_cases hk : i = k
    · subst hk
      have hlt := (List.getElem?_eq_some_iff.mp hread).1
      rw [getElem?_set_self hlt] at hother
      obtain rfl := Option.some.inj hother
      exact ⟨(answered _ _ _ hstage).order, (answered _ _ _ hstage).source⟩
    · rw [getElem?_set_ne hk] at hother
      exact h.answered k other _ _ _ hother hstage

theorem locked_of_locks (h : Sound got cache) (hmem : read ∈ cache.reads)
    (hlocks : read.locks = true) : (cache.heap read.entry).locked = true := by
  have hpos : 0 < cache.reads.countP (Read.owns read.entry) :=
    countP_pos_iff.mpr ⟨read, hmem, by simp [Read.owns, hlocks]⟩
  rw [← h.locked] at hpos
  cases hl : (cache.heap read.entry).locked with
  | false =>
    rw [hl] at hpos
    cases hpos
  | true => rfl

theorem pos_strong (h : Sound got cache) (hmem : read ∈ cache.reads) (hlive : read.live = true) :
    0 < (cache.heap read.entry).strong := by
  rw [h.strong _ (h.live read hmem hlive)]
  omega

theorem eq_of_pointer (h : Sound got cache) {e e' : Uuid × ℕ} (he : e ∈ cache.entries)
    (he' : e' ∈ cache.entries) (hsame : e.2 = e'.2) : e = e' :=
  inj_on_of_nodup_map h.pointers he he' hsame

theorem closed (h : Sound got cache) (hread : cache.reads[i]? = some read)
    (hlive : read.live = true) (ends : ({ read with stage } : Read).live = false)
    (answered : ∀ created returned snapshot, stage = .returned created returned snapshot →
      read.Answer got cache.config.ttlMs i created returned snapshot) :
    Sound got (cache.close i read stage) := by
  have hmem := mem_of_getElem? hread
  have hlocks : ({ read with stage } : Read).locks = false := by
    by_contra hlocks
    rw [Read.live_of_locks (Bool.eq_true_of_not_eq_false hlocks)] at ends
    cases ends
  have hrefreshes : ({ read with stage } : Read).refreshes = false := by
    by_contra hrefreshes
    rw [Read.locks_of_refreshes (Bool.eq_true_of_not_eq_false hrefreshes)] at hlocks
    cases hlocks
  have hpos := h.pos_strong hmem hlive
  have hheld := fun hl => h.locked_of_locks hmem hl
  refine h.moved hread
    (update cache.heap read.entry
      { cache.heap read.entry with
        locked := (cache.heap read.entry).locked && !read.locks,
        strong := (cache.heap read.entry).strong - 1 })
    (cache.refreshes + read.refreshes.toNat) (fun _ => hlive) (fun e => ?_) (fun e => ?_)
    (by rw [hrefreshes, Bool.toNat_false, Nat.add_zero])
    (fun t ht => by rw [ht] at ends; cases ends) (fun e t snapshot hvalue => ?_) answered
  · rcases eq_or_ne e read.entry with rfl | hne
    · simp only [update_self, Read.has, hlive, ends]
      simp
      omega
    · simp [Read.has, update_of_ne hne, ends, hne.symm]
  · rcases eq_or_ne e read.entry with rfl | hne
    · cases hl : read.locks with
      | false => simp [Read.owns, hl, hlocks]
      | true => simp [Read.owns, hl, hlocks, hheld hl]
    · simp [Read.owns, update_of_ne hne, hlocks, hne.symm]
  · rcases eq_or_ne e read.entry with rfl | hne
    · simpa using hvalue
    · simpa [update_of_ne hne] using hvalue

theorem stored (h : Sound got cache) (e : ℕ) (value : Option (ℕ × AccountCapacitySnapshot))
    (stamped : ∀ id, (id, e) ∈ cache.entries → ∀ t snapshot, value = some (t, snapshot) →
      t ≤ cache.now ∧ ∃ j, got id j t snapshot) :
    Sound got (cache.write e { cache.heap e with value }) := by
  have hheap (e' : ℕ) : (update cache.heap e { cache.heap e with value } e').strong =
        (cache.heap e').strong ∧
      (update cache.heap e { cache.heap e with value } e').locked = (cache.heap e').locked := by
    rcases eq_or_ne e' e with rfl | hne
    · simp
    · simp [update_of_ne hne]
  unfold write
  refine { h with
    strong := fun e' he' => (hheap e'.2).1.trans (h.strong e' he')
    locked := fun e' => (congrArg Bool.toNat (hheap e').2).trans (h.locked e')
    stamped := fun e' he' t snapshot hvalue => ?_ }
  rcases eq_or_ne e'.2 e with heq | hne
  · exact stamped e'.1 (heq ▸ he') t snapshot (by simpa [heq] using hvalue)
  · exact h.stamped e' he' t snapshot (by simpa [update_of_ne hne] using hvalue)

theorem looked (h : Sound got cache) (hread : cache.reads[i]? = some read)
    (hstage : read.stage = .locking) (hfree : (cache.heap read.entry).locked = false) :
    Sound got (cache.look i read) := by
  have hlive : read.live = true := by simp [Read.live, hstage]
  unfold look
  split
  · rename_i created snapshot hfresh
    obtain ⟨hvalue, hage⟩ := Option.filter_eq_some_iff.mp hfresh
    obtain ⟨hnow, j, hgot⟩ := h.stamped _ (h.live read (mem_of_getElem? hread) hlive) _ _ hvalue
    refine h.closed hread hlive rfl fun created' returned snapshot' heq => ?_
    obtain ⟨rfl, rfl, rfl⟩ := Stage.returned.inj heq
    exact ⟨hnow, j, hgot, .inl (of_decide_eq_true hage)⟩
  · refine h.moved hread
      (update cache.heap read.entry
        { cache.heap read.entry with value := none, locked := true })
      cache.refreshes (fun _ => hlive) (fun e => ?_) (fun e => ?_) ?_ (fun t ht => ?_)
      (fun e t snapshot hvalue => ?_) (fun _ _ _ heq => by cases heq)
    · rcases eq_or_ne e read.entry with rfl | hne
      · simp [Read.has, Read.live, hstage]
      · simp [Read.has, update_of_ne hne, hne.symm]
    · rcases eq_or_ne e read.entry with rfl | hne
      · simp [Read.owns, Read.locks, hstage, hfree]
      · simp [Read.owns, update_of_ne hne, hne.symm]
    · simp [Read.refreshes, hstage]
    · cases ht
    · rcases eq_or_ne e read.entry with rfl | hne
      · simp at hvalue
      · simpa [update_of_ne hne] using hvalue

theorem acquired (h : Sound got cache) (hread : cache.reads[i]? = some read)
    (hstage : read.stage = .acquiring) (hfree : 0 < cache.refreshes) :
    Sound got
      { cache.goes i read (.refreshing cache.now) with refreshes := cache.refreshes - 1 } := by
  refine h.moved hread cache.heap (cache.refreshes - 1)
    (fun _ => by simp [Read.live, hstage]) (fun e => ?_) (fun e => ?_) ?_
    (fun t ht => ?_) (fun _ _ _ hvalue => hvalue) (fun _ _ _ heq => by cases heq)
  · simp [Read.has, Read.live, hstage]
  · simp [Read.owns, Read.locks, hstage]
  · simp only [Read.refreshes, hstage, Bool.toNat_true, Bool.toNat_false]
    omega
  · obtain rfl := Stage.refreshing.inj ht
    exact ⟨h.begun read (mem_of_getElem? hread), le_refl _⟩

theorem answers (h : Sound got cache) (hread : cache.reads[i]? = some read) {sampledAt : ℕ}
    (hstage : read.stage = .refreshing sampledAt)
    (result : Except String AccountCapacitySnapshot)
    (hgot : ∀ snapshot, result = .ok snapshot → got read.account i sampledAt snapshot) :
    Sound got (cache.answer i read sampledAt result) := by
  have hmem := mem_of_getElem? hread
  have hlive : read.live = true := by simp [Read.live, hstage]
  obtain ⟨hbegun, hnow⟩ := h.sampled read hmem sampledAt hstage
  cases result with
  | error message => exact h.closed hread hlive rfl fun _ _ _ heq => by cases heq
  | ok snapshot =>
    have hgot := hgot snapshot rfl
    have hstored := h.stored read.entry (some (sampledAt, snapshot)) fun id he t snapshot' heq => by
      obtain ⟨rfl, rfl⟩ := Prod.mk.inj (Option.some.inj heq)
      -- the entry is the one of the read's account
      have hpair := h.eq_of_pointer he (h.live read hmem hlive) rfl
      rw [(Prod.mk.inj hpair).1]
      exact ⟨hnow, i, hgot⟩
    refine hstored.closed hread hlive rfl fun created returned snapshot' heq => ?_
    obtain ⟨rfl, rfl, rfl⟩ := Stage.returned.inj heq
    exact ⟨hnow, i, hgot, .inr ⟨rfl, hbegun⟩⟩

/-! ## The entry of an account -/

theorem countP_fresh (h : Sound got cache) {e : ℕ} (hfresh : cache.allocated ≤ e) :
    cache.reads.countP (Read.has e) = 0 ∧ cache.reads.countP (Read.owns e) = 0 := by
  have hnone : ∀ read ∈ cache.reads, read.live = true → read.entry ≠ e := by
    rintro read hread hlive rfl
    have hlt := h.allocated _ (h.live read hread hlive)
    exact absurd hlt (Nat.not_lt_of_le hfresh)
  constructor
  · refine countP_eq_zero.mpr fun read hread hhas => ?_
    obtain ⟨hlive, heq⟩ := Bool.and_eq_true_iff.mp hhas
    exact hnone read hread hlive (of_decide_eq_true heq)
  · refine countP_eq_zero.mpr fun read hread howns => ?_
    obtain ⟨hlocks, heq⟩ := Bool.and_eq_true_iff.mp howns
    exact hnone read hread (Read.live_of_locks hlocks) (of_decide_eq_true heq)

/-- A read begins, with an entry or refused. -/
theorem begins (h : Sound got cache) (heap' : ℕ → Entry) (hbegun : read.begun = cache.now)
    (hstage : read.stage = .locking ∨ ∃ message, read.stage = .failed message)
    (live : read.live = true → (read.account, read.entry) ∈ cache.entries)
    (strong : ∀ e, (heap' e).strong = (cache.heap e).strong + (read.has e).toNat)
    (locked : ∀ e, (heap' e).locked = (cache.heap e).locked)
    (value : ∀ e, (heap' e).value = (cache.heap e).value) :
    Sound got { cache with heap := heap', reads := cache.reads ++ [read] } := by
  have hlocks : read.locks = false := by
    rcases hstage with hstage | ⟨message, hstage⟩ <;> simp [Read.locks, hstage]
  have hrefreshes : read.refreshes = false := by
    rcases hstage with hstage | ⟨message, hstage⟩ <;> simp [Read.refreshes, hstage]
  have hcases : ∀ other ∈ cache.reads ++ [read], other ∈ cache.reads ∨ other = read :=
    fun other hother => by simpa using hother
  refine { h with
    live := fun other hother hlive => ?_, strong := fun e he => ?_, locked := fun e => ?_,
    permits := ?_, begun := fun other hother => ?_, sampled := fun other hother t ht => ?_,
    stamped := fun e he t snapshot hvalue => h.stamped e he t snapshot (value e.2 ▸ hvalue),
    answered := fun k other created returned snapshot hother hreturned => ?_ }
  · rcases hcases other hother with hother | rfl
    · exact h.live other hother hlive
    · exact live hlive
  · have hstrong := h.strong e he
    simp only [countP_concat, strong]
    omega
  · have howns : read.owns e = false := by simp [Read.owns, hlocks]
    simp only [countP_concat, locked, howns, h.locked e, Bool.toNat_false, Nat.add_zero]
  · simp only [countP_concat, hrefreshes, h.permits, Bool.toNat_false, Nat.add_zero]
  · rcases hcases other hother with hother | rfl
    · exact h.begun other hother
    · exact hbegun.le
  · rcases hcases other hother with hother | rfl
    · exact h.sampled other hother t ht
    · rcases hstage with hstage | ⟨message, hstage⟩ <;> cases hstage.symm.trans ht
  · rcases getElem?_append_cases hother with hother | rfl
    · exact h.answered k other _ _ _ hother hreturned
    · rcases hstage with hstage | ⟨message, hstage⟩ <;> cases hstage.symm.trans hreturned

theorem added (h : Sound got cache) {id : Uuid} (stamp : ℕ) (hnone : get id cache.entries = none)
    (hroom : cache.entries.length < cache.config.cacheEntries) :
    Sound got { cache with
      entries := cache.entries ++ [(id, cache.allocated)],
      heap := update cache.heap cache.allocated { touched := stamp, strong := 1 },
      allocated := cache.allocated + 1 } := by
  obtain ⟨hhas, howns⟩ := h.countP_fresh (Nat.le_refl cache.allocated)
  have hne : ∀ e ∈ cache.entries, e.2 ≠ cache.allocated :=
    fun e he => Nat.ne_of_lt (h.allocated e he)
  have hcases : ∀ e ∈ cache.entries ++ [(id, cache.allocated)],
      e ∈ cache.entries ∨ e = (id, cache.allocated) := fun e he => by simpa using he
  refine { h with
    keys := ?_, size := ?_, pointers := ?_, allocated := fun e he => ?_,
    live := fun read hread hlive => mem_append_left _ (h.live read hread hlive),
    strong := fun e he => ?_, locked := fun e => ?_, stamped := fun e he t snapshot hvalue => ?_ }
  · rw [map_append]
    refine nodup_append'.mpr ⟨h.keys, by simp, ?_⟩
    simpa using Redis.get_eq_none.mp hnone
  · rw [length_append]
    exact hroom
  · rw [map_append]
    refine nodup_append'.mpr ⟨h.pointers, by simp, ?_⟩
    rintro p hp hq
    obtain ⟨e, he, rfl⟩ := mem_map.mp hp
    exact hne e he (by simpa using hq)
  · rcases hcases e he with he | rfl
    · exact Nat.lt_succ_of_lt (h.allocated e he)
    · exact Nat.lt_succ_self _
  · rcases hcases e he with he | rfl
    · simp only [update_of_ne (hne e he)]
      exact h.strong e he
    · simp [hhas]
  · rcases eq_or_ne e cache.allocated with rfl | hother
    · simp [howns]
    · simp only [update_of_ne hother]
      exact h.locked e
  · rcases hcases e he with he | rfl
    · simp only [update_of_ne (hne e he)] at hvalue
      exact h.stamped e he t snapshot hvalue
    · simp at hvalue

theorem removed (h : Sound got cache) {old : Uuid × ℕ} (hmem : old ∈ cache.entries)
    (hidle : (cache.heap old.2).strong = 1) : Sound got (cache.remove old) := by
  have hsub : ∀ {e : Uuid × ℕ}, e ∈ del old.1 cache.entries → e ∈ cache.entries :=
    fun he => (mem_filter.mp he).1
  have hnone : cache.reads.countP (Read.has old.2) = 0 := by
    have hcount := h.strong old hmem
    omega
  have hother : ∀ {e : Uuid × ℕ}, e ∈ del old.1 cache.entries → e.2 ≠ old.2 := by
    intro e he heq
    have hne := (mem_filter.mp he).2
    rw [h.eq_of_pointer (hsub he) hmem heq] at hne
    simp at hne
  have hlive : ∀ read ∈ cache.reads, read.live = true →
      (read.account, read.entry) ∈ del old.1 cache.entries := by
    intro read hread hlive
    have hentry := h.live read hread hlive
    refine mem_filter.mpr ⟨hentry, decide_eq_true fun heq => ?_⟩
    -- the read would have the entry that no read has
    have hsame : (read.account, read.entry) = old :=
      inj_on_of_nodup_map h.keys hentry hmem heq
    have hzero := countP_eq_zero.mp hnone read hread
    simp [Read.has, hlive, ← hsame] at hzero
  simp only [remove, write]
  refine { h with
    keys := Redis.nodup_del h.keys, size := Nat.le_trans (length_filter_le _ _) h.size,
    pointers := h.pointers.sublist (filter_sublist.map _),
    allocated := fun e he => h.allocated e (hsub he), live := hlive,
    strong := fun e he => ?_, locked := fun e => ?_, stamped := fun e he t snapshot hvalue => ?_ }
  · simp only [update_of_ne (hother he)]
    exact h.strong e (hsub he)
  · rcases eq_or_ne e old.2 with rfl | hne
    · simp only [update_self]
      exact h.locked old.2
    · simp only [update_of_ne hne]
      exact h.locked e
  · simp only [update_of_ne (hother he)] at hvalue
    exact h.stamped e (hsub he) t snapshot hvalue

theorem clocked (h : Sound got cache) (clock : ℕ) : Sound got { cache with clock } := { h with }

theorem inserted (h : Sound got cache) (id : Uuid) {stamp : ℕ}
    (hnone : get id cache.entries = none)
    (hroom : cache.entries.length < cache.config.cacheEntries) :
    Sound got { cache.insert id stamp with
      reads := (cache.insert id stamp).reads ++
        [{ account := id, entry := cache.allocated, begun := (cache.insert id stamp).now }] } := by
  have hadded := h.added stamp hnone hroom
  have hheap (e : ℕ) := eq_or_ne e cache.allocated
  refine hadded.begins (cache.insert id stamp).heap rfl (.inl rfl) (fun _ => by simp)
    (fun e => ?_) (fun e => ?_) (fun e => ?_)
  all_goals
    simp only [CapacityCache.insert, write]
    rcases hheap e with rfl | hne
  · simp [Read.has, Read.live]
  · simp [Read.has, update_of_ne hne, hne.symm]
  · simp
  · simp [update_of_ne hne]
  · simp
  · simp [update_of_ne hne]

theorem found (h : Sound got cache) {id : Uuid} {e stamp : ℕ}
    (hget : get id cache.entries = some e) :
    Sound got { cache with
      heap := update cache.heap e
        { cache.heap e with touched := stamp, strong := (cache.heap e).strong + 1 }
      reads := cache.reads ++ [{ account := id, entry := e, begun := cache.now }] } := by
  refine h.begins _ rfl (.inl rfl) (fun _ => Redis.mem_of_get hget)
    (fun e' => ?_) (fun e' => ?_) (fun e' => ?_)
  all_goals rcases eq_or_ne e' e with rfl | hne
  · simp [Read.has, Read.live]
  · simp [Read.has, update_of_ne hne, hne.symm]
  · simp
  · simp [update_of_ne hne]
  · simp
  · simp [update_of_ne hne]

theorem refused (h : Sound got cache) (id : Uuid) (message : String) :
    Sound got { cache with
      reads := cache.reads ++
        [{ account := id, entry := 0, begun := cache.now, stage := .failed message }] } :=
  h.begins cache.heap rfl (.inr ⟨message, rfl⟩) (fun hlive => by cases hlive) (fun _ => rfl)
    (fun _ => rfl) fun _ => rfl

theorem began (h : Sound got cache) (id : Uuid) : Sound got (cache.begin id) := by
  have hclock := h.clocked (cache.clock + 1)
  unfold begin
  cases hget : get id cache.entries with
  | some e =>
    simp only [entry, hget]
    exact hclock.found hget
  | none =>
    by_cases hfull : cache.entries.length = cache.config.cacheEntries
    · cases hevict : evictable { cache with clock := cache.clock + 1 } with
      | none =>
        simp only [entry, hget, hfull, if_true, hevict]
        exact hclock.refused id _
      | some old =>
        simp only [entry, hget, hfull, if_true, hevict]
        have hold := mem_filter.mp (argmin_mem hevict)
        have hremoved := hclock.removed hold.1 (of_decide_eq_true hold.2)
        refine hremoved.inserted id ?_ ?_
        · show get id (del old.1 cache.entries) = none
          rw [Redis.get_del, update_apply, hget]
          split <;> rfl
        · exact Nat.lt_of_lt_of_eq (Redis.length_del_lt hold.1) hfull
    · simp only [entry, hget, hfull, if_false]
      exact hclock.inserted id hget (Nat.lt_of_le_of_ne h.size hfull)

/-! ## Whole runs -/

theorem ticked (h : Sound got cache) (ms : ℕ) : Sound got { cache with now := cache.now + ms } :=
  { h with
    begun := fun read hread => Nat.le_add_right_of_le (h.begun read hread)
    sampled := fun read hread t ht => ⟨(h.sampled read hread t ht).1,
      Nat.le_add_right_of_le (h.sampled read hread t ht).2⟩
    stamped := fun e he t snapshot hvalue =>
      ⟨Nat.le_add_right_of_le (h.stamped e he t snapshot hvalue).1,
        (h.stamped e he t snapshot hvalue).2⟩ }

/-- **One step keeps the invariant**, if the history has what the step gets. -/
theorem step (h : Sound got cache) (event : Event)
    (hgot : ∀ i snapshot read t, event = .complete i (.ok snapshot) →
      cache.reads[i]? = some read → read.stage = .refreshing t → got read.account i t snapshot) :
    Sound got (CapacityCache.step event cache) := by
  cases event with
  | read id => exact h.began id
  | tick ms => exact h.ticked ms
  | lock i =>
    simp only [CapacityCache.step]
    split
    · rename_i read hread
      split
      · rename_i hcond
        exact h.looked hread hcond.1 hcond.2
      · exact h
    · exact h
  | acquire i =>
    simp only [CapacityCache.step]
    split
    · rename_i read hread
      split
      · rename_i hcond
        exact h.acquired hread hcond.1 hcond.2
      · exact h
    · exact h
  | complete i result =>
    simp only [CapacityCache.step]
    split
    · rename_i read hread
      split
      · rename_i sampledAt hstage
        refine h.answers hread hstage result fun snapshot hresult => ?_
        exact hgot i snapshot read sampledAt (by rw [hresult]) hread hstage
      · exact h
    · exact h
  | expire | cancel =>
    simp only [CapacityCache.step]
    split
    · rename_i read hread
      split
      · rename_i hlive
        exact h.closed hread hlive rfl fun _ _ _ heq => by cases heq
      · exact h
    · exact h

theorem owner_unique (h : Sound got cache) {j : ℕ} {other : Read}
    (hread : cache.reads[i]? = some read)
    (hother : cache.reads[j]? = some other) (hlocks : read.locks = true)
    (hlocks' : other.locks = true) (hsame : read.entry = other.entry) : i = j := by
  by_contra hne
  -- without the first owner the count of the owners is zero, and the second is counted
  have hcount := countP_set_add (p := Read.owns read.entry) (b := { read with stage := .cancelled })
    hread
  have hsecond : (cache.reads.set i { read with stage := .cancelled })[j]? = some other := by
    rw [getElem?_set_ne hne]
    exact hother
  have hpos : 0 < (cache.reads.set i { read with stage := .cancelled }).countP
      (Read.owns read.entry) :=
    countP_pos_iff.mpr
      ⟨other, mem_of_getElem? hsecond, by simp [Read.owns, hlocks', hsame]⟩
  have hle : cache.reads.countP (Read.owns read.entry) ≤ 1 := by
    rw [← h.locked]
    exact Bool.toNat_le _
  have howns : Read.owns read.entry read = true := by simp [Read.owns, hlocks]
  have hended : Read.owns read.entry { read with stage := .cancelled } = false := rfl
  rw [howns, hended] at hcount
  simp only [Bool.toNat_true, Bool.toNat_false] at hcount
  omega

theorem refresh_unique (h : Sound got cache) {j : ℕ} {other : Read}
    (hread : cache.reads[i]? = some read) (hother : cache.reads[j]? = some other)
    (hrefreshes : read.refreshes = true) (hrefreshes' : other.refreshes = true)
    (hsame : read.account = other.account) : i = j := by
  have hlocks := Read.locks_of_refreshes hrefreshes
  have hlocks' := Read.locks_of_refreshes hrefreshes'
  have hentry := h.live read (mem_of_getElem? hread) (Read.live_of_locks hlocks)
  have hentry' := h.live other (mem_of_getElem? hother) (Read.live_of_locks hlocks')
  have hpair : (read.account, read.entry) = (other.account, other.entry) :=
    inj_on_of_nodup_map h.keys hentry hentry' hsame
  exact h.owner_unique hread hother hlocks hlocks' (Prod.mk.inj hpair).2

end Sound

theorem begin_config (cache : CapacityCache) (id : Uuid) :
    (cache.begin id).config = cache.config := by
  have hentry : (cache.entry id).2.config = cache.config := by
    fun_cases cache.entry id <;> rfl
  fun_cases cache.begin id <;> grind

theorem step_config (event : Event) (cache : CapacityCache) :
    (step event cache).config = cache.config := by
  fun_cases step event cache
  case case1 => exact begin_config ..
  all_goals first
    | rfl
    | (simp only [look]; split <;> rfl)
    | (rename_i result _ _ _ _; cases result <;> rfl)

theorem run_config (events : List Event) (cache : CapacityCache) :
    (run events cache).config = cache.config :=
  Relational.runAll_invariant (I := fun c => c.config = cache.config)
    (fun event _ h => (step_config event _).trans h) events cache rfl

/-- **What the refreshes of a run got**: the refresh of the read `j` of an account, begun at `t`,
was answered with the snapshot. -/
def Refreshed (start : CapacityCache) (events : List Event) (id : Uuid) (j t : ℕ)
    (snapshot : AccountCapacitySnapshot) : Prop :=
  ∃ before after read, events = before ++ .complete j (.ok snapshot) :: after ∧
    (run before start).reads[j]? = some read ∧ read.account = id ∧ read.stage = .refreshing t

theorem sound_run {config : RoutingCapacityConfig} {start : CapacityCache}
    (hnew : new config = .ok start) (events : List Event) :
    Sound (Refreshed start events) (run events start) := by
  induction events using List.reverseRecOn with
  | nil => exact sound_new hnew _
  | append_singleton events event ih =>
    have hgrown : Sound (Refreshed start (events ++ [event])) (run events start) := by
      refine ih.mono ?_
      rintro id j t snapshot ⟨before, after, read, rfl, hread⟩
      exact ⟨before, after ++ [event], read, by simp, hread⟩
    have hstep := hgrown.step event fun i snapshot read t hevent hread hstage =>
      ⟨events, [], read, by rw [hevent], hread, rfl, hstage⟩
    rw [run, Relational.runAll_append]
    exact hstep

theorem getElem?_set_cases {α : Type} {l : List α} {i k : ℕ} {a b : α}
    (h : (l.set k b)[i]? = some a) : l[i]? = some a ∨ a = b := by
  rw [getElem?_set] at h
  split at h
  · split at h
    · exact .inr (Option.some.inj h).symm
    · cases h
  · exact .inl h

/-- The time at which a read returns is the time of the step in which it does. -/
theorem step_returned {event : Event} {cache : CapacityCache} {i : ℕ} {read : Read}
    {created returned : ℕ} {snapshot : AccountCapacitySnapshot}
    (hread : (step event cache).reads[i]? = some read)
    (hstage : read.stage = .returned created returned snapshot) :
    cache.reads[i]? = some read ∨ returned = cache.now := by
  have hset {k : ℕ} {old : Read} {stage : Stage}
      (h : (cache.reads.set k { old with stage })[i]? = some read)
      (hnow : ∀ c r s, stage = .returned c r s → r = cache.now) :
      cache.reads[i]? = some read ∨ returned = cache.now := by
    rcases getElem?_set_cases h with h | rfl
    · exact .inl h
    · exact .inr (hnow _ _ _ hstage)
  cases event with
  | read id =>
    have hreads : (cache.entry id).2.reads = cache.reads := by
      fun_cases cache.entry id <;> rfl
    simp only [step, begin] at hread
    split at hread
    all_goals
      rename_i hentry
      rw [hentry] at hreads
      rcases getElem?_append_cases hread with hread | rfl
      · exact .inl (hreads ▸ hread)
      · cases hstage
  | tick ms => exact .inl hread
  | lock k =>
    simp only [step] at hread
    split at hread
    · split at hread
      · simp only [look] at hread
        split at hread
        · exact hset hread fun c r s heq => (Stage.returned.inj heq).2.1.symm
        · exact hset hread fun c r s heq => by cases heq
      · exact .inl hread
    · exact .inl hread
  | acquire k =>
    simp only [step] at hread
    split at hread
    · split at hread
      · exact hset hread fun c r s heq => by cases heq
      · exact .inl hread
    · exact .inl hread
  | complete k result =>
    simp only [step] at hread
    split at hread
    · split at hread
      · cases result with
        | ok snapshot => exact hset hread fun c r s heq => (Stage.returned.inj heq).2.1.symm
        | error message => exact hset hread fun c r s heq => by cases heq
      · exact .inl hread
    · exact .inl hread
  | expire | cancel =>
    simp only [step] at hread
    split at hread
    · split at hread
      · exact hset hread fun c r s heq => by cases heq
      · exact .inl hread
    · exact .inl hread

/-- **The cache is bounded and gives its slots back.**  The map stays within its limit; refreshes of
one account exclude each other, and at most `concurrency` of all accounts are in progress; the free
permits are exactly those that no refresh in progress has, and a mutex is held by a read in progress
only.  What a read returns is what a refresh of its account got: less than the time to live after
that refresh was begun, or from its own refresh, begun after the read. -/
theorem capacity_cache_bounded (config : RoutingCapacityConfig) (start : CapacityCache)
    (hnew : new config = .ok start) (events : List Event) (cache : CapacityCache)
    (hrun : run events start = cache) :
    cache.entries.length ≤ config.cacheEntries ∧
    (∀ (i j : ℕ) (read other : Read), cache.reads[i]? = some read → cache.reads[j]? = some other →
      read.refreshes = true → other.refreshes = true → read.account = other.account → i = j) ∧
    cache.reads.countP Read.refreshes ≤ config.concurrency ∧
    cache.refreshes = config.concurrency - cache.reads.countP Read.refreshes ∧
    (∀ e, (cache.heap e).locked = true →
      ∃ read ∈ cache.reads, read.locks = true ∧ read.entry = e) ∧
    (∀ (i : ℕ) (read : Read) created returned snapshot, cache.reads[i]? = some read →
      read.stage = .returned created returned snapshot →
        created ≤ returned ∧ ∃ j, Refreshed start events read.account j created snapshot ∧
          (returned - created < config.ttlMs ∨ j = i ∧ read.begun ≤ created)) ∧
    ∀ event (i : ℕ) (read : Read) created returned snapshot,
      (step event cache).reads[i]? = some read →
      read.stage = .returned created returned snapshot →
        cache.reads[i]? = some read ∨ returned = cache.now := by
  have h : Sound (Refreshed start events) cache := hrun ▸ sound_run hnew events
  have hconfig : cache.config = config := by
    rw [← hrun, run_config]
    unfold new at hnew
    cases hvalid : config.validate with
    | error message =>
      rw [hvalid] at hnew
      cases hnew
    | ok _ =>
      rw [hvalid] at hnew
      obtain rfl := Except.ok.inj hnew
      rfl
  have hpermits := h.permits
  rw [hconfig] at hpermits
  refine ⟨hconfig ▸ h.size, fun i j read other => h.refresh_unique, by omega, by omega,
    fun e hlocked => ?_, fun i read created returned snapshot hread hstage => ?_,
    fun event i read created returned snapshot => step_returned⟩
  · have hcount := h.locked e
    rw [hlocked] at hcount
    have hpos : 0 < cache.reads.countP (Read.owns e) := by
      rw [← hcount]
      exact Nat.one_pos
    obtain ⟨read, hread, howns⟩ := countP_pos_iff.mp hpos
    obtain ⟨hlocks, heq⟩ := Bool.and_eq_true_iff.mp howns
    exact ⟨read, hread, hlocks, of_decide_eq_true heq⟩
  · obtain ⟨horder, hsource⟩ := h.answered i read created returned snapshot hread hstage
    exact ⟨horder, hconfig ▸ hsource⟩

/-- A refresh that the policy answers after half a second. -/
def slowRefresh : List Event :=
  [.read 1, .lock 0, .acquire 0, .tick 500, .complete 0 (.ok ⟨0, 0, 0, 32⟩)]

theorem capacity_cache_bounded_slow :
    ∃ start, new {} = .ok start ∧ (run slowRefresh start).entries.length ≤ 4096 ∧
      (run slowRefresh start).refreshes = 16 ∧
      ∃ j, Refreshed start slowRefresh 1 j 0 ⟨0, 0, 0, 32⟩ ∧ (500 - 0 < 100 ∨ j = 0 ∧ 0 ≤ 0) := by
  refine ⟨_, rfl, ?_⟩
  obtain ⟨hsize, -, -, hrefreshes, -, hanswers, -⟩ :=
    capacity_cache_bounded {} _ rfl slowRefresh _ rfl
  have hread : (run slowRefresh { config := {}, refreshes := 16 }).reads[0]? =
      some ⟨1, 0, 0, .returned 0 500 ⟨0, 0, 0, 32⟩⟩ := by
    decide +kernel
  exact ⟨hsize, hrefreshes.trans (by decide +kernel), (hanswers 0 _ 0 500 _ hread rfl).2⟩

/-- The snapshot of a refresh can be older than the time to live when its read returns it: it is
stamped before the policy is asked. -/
theorem capacity_snapshot_outlives_ttl :
    ∃ start, new {} = .ok start ∧
      ∃ read ∈ (run slowRefresh start).reads, ∃ created returned snapshot,
        read.stage = .returned created returned snapshot ∧
          ({} : RoutingCapacityConfig).ttlMs < returned - created :=
  ⟨_, rfl, ⟨1, 0, 0, .returned 0 500 ⟨0, 0, 0, 32⟩⟩, by decide +kernel, 0, 500, ⟨0, 0, 0, 32⟩, rfl,
    by decide⟩

end KeyCompute.Routing
