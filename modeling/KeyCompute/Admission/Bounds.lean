import KeyCompute.Admission.Effect
import KeyCompute.Window.Weight

/-!
# The counts of bounded admission

The counts behind the lock are those of the calls: `Sound` says so, key by key, together with the
limits.  Everything else about the counters follows, also that no subtraction below zero and no
missing entry can occur.
-/

namespace KeyCompute.Admission

open Window Call Admission.System State Function List Option
open scoped Uuid

def Call.live (call : Call) : Bool := call.phase.live

def Call.queued (call : Call) : Bool := call.phase.queued

noncomputable def countFor (p : Call → Bool) (key : Uuid) (calls : Uuid → Option Call) : ℕ :=
  count (fun call => p call && decide (call.key = key)) calls

noncomputable def keyEntry (calls : Uuid → Option Call) (key : Uuid) : Option Counts :=
  Counts.entry ⟨countFor live key calls, countFor queued key calls⟩

/-- **The counters are those of the calls, within the limits.** -/
structure Sound (limits : AdmissionLimits) (sys : System) : Prop where
  healthy : sys.poisoned = false
  active : sys.state.active = count live sys.calls
  keys : sys.state.keys = keyEntry sys.calls
  tickets : (sys.state.queue.map Prod.fst).Nodup
  queue : ∀ ticket key, (ticket, key) ∈ sys.state.queue ↔
    ∃ call, sys.calls ticket = some call ∧ call.queued = true ∧ call.key = key
  total : sys.state.active ≤ limits.total
  perKey : ∀ key, countFor live key sys.calls ≤ limits.perKey
  queueBound : sys.state.queue.length ≤ limits.queue
  queuePerKey : ∀ key, countFor queued key sys.calls ≤ limits.queuePerKey

theorem sound_empty (limits : AdmissionLimits) : Sound limits {} := by
  have hzero : ∀ p key, countFor p key (fun _ => none) = 0 := fun _ _ => weight_none
  refine ⟨rfl, weight_none.symm, ?_, nodup_nil, fun ticket key => by simp, Nat.zero_le _,
    fun key => ?_, Nat.zero_le _, fun key => ?_⟩
  · funext key
    simp [keyEntry, hzero, Counts.entry]
  · rw [show ({} : System).calls = fun _ => none from rfl, hzero]
    exact Nat.zero_le _
  · rw [show ({} : System).calls = fun _ => none from rfl, hzero]
    exact Nat.zero_le _

/-! ## Counting calls -/

section Counting

variable {calls calls' : Uuid → Option Call} {ticket key : Uuid} {call : Call} {p : Call → Bool}

theorem count_same (h : SamePlaces calls calls') {f : Uuid × Bool × Bool → Bool}
    (hp : ∀ call : Call, p call = f call.place) : count p calls' = count p calls := by
  refine count_congr fun ticket => ?_
  have hany : ∀ o : Option Call, o.any p = (o.map place).any f := by
    intro o
    cases o with
    | none => rfl
    | some call => exact hp call
  rw [hany, hany, h]

theorem countFor_same_live (h : SamePlaces calls calls') (key : Uuid) :
    countFor live key calls' = countFor live key calls :=
  count_same h (f := fun place => place.2.1 && decide (place.1 = key)) fun _ => rfl

theorem countFor_same_queued (h : SamePlaces calls calls') (key : Uuid) :
    countFor queued key calls' = countFor queued key calls :=
  count_same h (f := fun place => place.2.2 && decide (place.1 = key)) fun _ => rfl

theorem countFor_update_of_ne (found : calls ticket = some call) (phase : Phase)
    (hkey : key ≠ call.key) :
    countFor p key (update calls ticket (some { call with phase })) =
      countFor p key calls := by
  have hupdate := count_update (p := fun call => p call && decide (call.key = key)) (m := calls)
    ticket (some { call with phase })
  simp only [found, any_some, Ne.symm hkey, decide_false, Bool.and_false] at hupdate
  unfold countFor
  omega

theorem countFor_update_self (found : calls ticket = some call) (phase : Phase) :
    countFor p call.key (update calls ticket (some { call with phase })) +
        (p call).toNat =
      countFor p call.key calls + (p { call with phase }).toNat := by
  have hupdate := count_update (p := fun c => p c && decide (c.key = call.key)) (m := calls)
    ticket (some { call with phase })
  simp only [found, any_some, decide_true, Bool.and_true] at hupdate
  exact hupdate

theorem count_update_some (found : calls ticket = some call) (phase : Phase) :
    count p (update calls ticket (some { call with phase })) + (p call).toNat =
      count p calls + (p { call with phase }).toNat := by
  have hupdate := count_update (p := p) (m := calls) ticket (some { call with phase })
  simpa only [found, any_some] using hupdate

theorem countFor_pos (found : calls ticket = some call) (hp : p call = true) :
    0 < countFor p call.key calls :=
  count_pos found (by simp [hp])

theorem getD_entry (counts : Counts) : counts.entry.getD {} = counts := by
  unfold Counts.entry
  split
  · rename_i hzero
    obtain ⟨active, queued⟩ := counts
    obtain ⟨rfl, rfl⟩ := hzero
    rfl
  · rfl

theorem entry_of_pos {counts : Counts} (h : 0 < counts.active ∨ 0 < counts.queued) :
    counts.entry = some counts := by
  unfold Counts.entry
  rw [if_neg]
  omega

/-- **The entries of all keys after one call changed its place**, given the entry of its key. -/
theorem keyEntry_update {phase : Phase} {counts : Counts} (found : calls ticket = some call)
    (hlive : counts.active + call.live.toNat = countFor live call.key calls + phase.live.toNat)
    (hqueued : counts.queued + call.queued.toNat =
      countFor queued call.key calls + phase.queued.toNat) :
    keyEntry (update calls ticket (some { call with phase })) =
      update (keyEntry calls) call.key counts.entry := by
  funext key
  by_cases hother : key = call.key
  · subst hother
    have hlive' := countFor_update_self (p := live) found phase
    have hqueued' := countFor_update_self (p := queued) found phase
    simp only [live, queued] at hlive hqueued hlive' hqueued'
    obtain ⟨active, queued⟩ := counts
    rw [update_self, keyEntry]
    congr 2
    · exact Nat.add_right_cancel (hlive'.trans hlive.symm)
    · exact Nat.add_right_cancel (hqueued'.trans hqueued.symm)
  · rw [update_of_ne hother, keyEntry, keyEntry,
      countFor_update_of_ne found phase hother, countFor_update_of_ne found phase hother]

end Counting

/-! ## Steps -/

section Steps

variable {limits : AdmissionLimits} {sys : System} {ticket : Uuid} {call : Call}

namespace Sound

theorem countsOf (h : Sound limits sys) (key : Uuid) :
    sys.state.countsOf key =
      ⟨countFor live key sys.calls, countFor queued key sys.calls⟩ := by
  rw [State.countsOf, h.keys, keyEntry, getD_entry]

theorem eligible_iff (h : Sound limits sys) (key : Uuid) (positive : 0 < limits.perKey) :
    sys.state.eligible limits key = true ↔
      sys.state.active < limits.total ∧ countFor live key sys.calls < limits.perKey := by
  have hall : (sys.state.keys key).all (fun counts => decide (counts.active < limits.perKey)) =
      decide (countFor live key sys.calls < limits.perKey) := by
    rw [h.keys, keyEntry, Counts.entry]
    split
    · rename_i hzero
      simp only at hzero
      simp [hzero.1, positive]
    · rfl
  rw [eligible, hall]
  simp

theorem mem_queue (h : Sound limits sys) (found : sys.calls ticket = some call)
    (queued : call.queued = true) : (ticket, call.key) ∈ sys.state.queue :=
  (h.queue ticket call.key).mpr ⟨call, found, queued, rfl⟩

theorem not_mem_queue (h : Sound limits sys) (found : sys.calls ticket = some call)
    (queued : call.queued = false) (key : Uuid) : (ticket, key) ∉ sys.state.queue := by
  intro hmem
  obtain ⟨call', hcall', hqueued', -⟩ := (h.queue ticket key).mp hmem
  rw [found] at hcall'
  rw [← some.inj hcall', queued] at hqueued'
  cases hqueued'

theorem find_ticket (h : Sound limits sys) (found : sys.calls ticket = some call)
    (queued : call.queued = true) :
    (sys.state.queue.find? fun entry => decide (entry.1 = ticket)) = some (ticket, call.key) := by
  have hlookup : Relational.lookup Prod.fst ticket sys.state.queue = some (ticket, call.key) :=
    (Relational.lookup_eq_some h.tickets).mpr ⟨h.mem_queue found queued, rfl⟩
  exact hlookup

theorem keys_of_queued (h : Sound limits sys) (found : sys.calls ticket = some call)
    (queued : call.queued = true) :
    sys.state.keys call.key =
      some ⟨countFor Call.live call.key sys.calls, countFor Call.queued call.key sys.calls⟩ := by
  rw [h.keys, keyEntry]
  exact entry_of_pos (.inr (countFor_pos found queued))

theorem keys_of_live (h : Sound limits sys) (found : sys.calls ticket = some call)
    (live : call.live = true) :
    sys.state.keys call.key =
      some ⟨countFor Call.live call.key sys.calls, countFor Call.queued call.key sys.calls⟩ := by
  rw [h.keys, keyEntry]
  exact entry_of_pos (.inl (countFor_pos found live))

end Sound

theorem checkedPred_of_pos {n : ℕ} (h : 0 < n) : checkedPred n = some (n - 1) := by
  simp [checkedPred, Nat.pos_iff_ne_zero.mp h]

theorem mem_eraseTicket {queue : List (Uuid × Uuid)} (unique : (queue.map Prod.fst).Nodup)
    (ticket : Uuid) (entry : Uuid × Uuid) :
    entry ∈ queue.eraseP (fun entry => decide (entry.1 = ticket)) ↔
      entry ∈ queue ∧ entry.1 ≠ ticket := by
  induction queue with
  | nil => simp
  | cons first rest ih =>
    obtain ⟨hfresh, hrest⟩ := nodup_cons.mp unique
    by_cases hfirst : first.1 = ticket
    · rw [eraseP_cons_of_pos (by simpa using hfirst), mem_cons]
      constructor
      · intro hmem
        refine ⟨.inr hmem, fun hsame => hfresh ?_⟩
        rw [hfirst, ← hsame]
        exact mem_map_of_mem hmem
      · rintro ⟨rfl | hmem, hne⟩
        · exact absurd hfirst hne
        · exact hmem
    · rw [eraseP_cons_of_neg (by simpa using hfirst), mem_cons, mem_cons,
        ih hrest]
      constructor
      · rintro (rfl | ⟨hmem, hne⟩)
        · exact ⟨.inl rfl, hfirst⟩
        · exact ⟨.inr hmem, hne⟩
      · rintro ⟨rfl | hmem, hne⟩
        · exact .inl rfl
        · exact .inr ⟨hmem, hne⟩

namespace Sound

theorem same {sys' : System} (h : Sound limits sys) (counts : SameCounts sys.state sys'.state)
    (places : SamePlaces sys.calls sys'.calls) (healthy : sys'.poisoned = sys.poisoned) :
    Sound limits sys' where
  healthy := healthy.trans h.healthy
  active := by
    rw [counts.active, h.active]
    exact (count_same places (f := fun place => place.2.1) fun _ => rfl).symm
  keys := by
    rw [counts.keys, h.keys]
    funext key
    rw [keyEntry, keyEntry, countFor_same_live places, countFor_same_queued places]
  tickets := by
    rw [counts.queue]
    exact h.tickets
  queue ticket key := by
    rw [counts.queue, h.queue]
    have hplace := places ticket
    constructor
    · rintro ⟨call, hcall, hqueued, hkey⟩
      rw [hcall] at hplace
      obtain ⟨call', hcall', heq⟩ := map_eq_some_iff.mp hplace
      simp only [place, Prod.mk.injEq] at heq
      exact ⟨call', hcall', heq.2.2.trans hqueued, heq.1.trans hkey⟩
    · rintro ⟨call', hcall', hqueued, hkey⟩
      rw [hcall'] at hplace
      obtain ⟨call, hcall, heq⟩ := map_eq_some_iff.mp hplace.symm
      simp only [place, Prod.mk.injEq] at heq
      exact ⟨call, hcall, heq.2.2.trans hqueued, heq.1.trans hkey⟩
  total := counts.active ▸ h.total
  perKey key := by
    rw [countFor_same_live places]
    exact h.perKey key
  queueBound := by
    rw [counts.queue]
    exact h.queueBound
  queuePerKey key := by
    rw [countFor_same_queued places]
    exact h.queuePerKey key

theorem placed (h : Sound limits sys) (state' : State) (counts : Counts)
    (found : sys.calls ticket = some call) {phase : Phase}
    (active : state'.active + call.live.toNat = sys.state.active + phase.live.toNat)
    (keys : state'.keys = update sys.state.keys call.key counts.entry)
    (live : counts.active + call.live.toNat =
      countFor Call.live call.key sys.calls + phase.live.toNat)
    (queued : counts.queued + call.queued.toNat =
      countFor Call.queued call.key sys.calls + phase.queued.toNat)
    (tickets : (state'.queue.map Prod.fst).Nodup)
    (queue : ∀ other key, (other, key) ∈ state'.queue ↔
      if other = ticket then phase.queued = true ∧ call.key = key
      else (other, key) ∈ sys.state.queue)
    (total : state'.active ≤ limits.total) (perKey : counts.active ≤ limits.perKey)
    (queueBound : state'.queue.length ≤ limits.queue)
    (queuePerKey : counts.queued ≤ limits.queuePerKey) :
    Sound limits (({ sys with state := state' }).setPhase ticket call phase) where
  healthy := h.healthy
  active := by
    have hcount := count_update_some (p := Call.live) found phase
    have hactive := h.active
    simp only [Call.live] at hcount active hactive ⊢
    simp only [state_setPhase, calls_setPhase]
    omega
  keys := by
    simp only [state_setPhase, calls_setPhase]
    rw [keys, h.keys]
    exact (keyEntry_update found live queued).symm
  tickets := tickets
  queue other key := by
    simp only [state_setPhase, calls_setPhase]
    rw [queue]
    by_cases hother : other = ticket
    · subst hother
      simp [Call.queued]
    · simp [hother, h.queue]
  total := total
  perKey key := by
    simp only [calls_setPhase]
    by_cases hkey : key = call.key
    · subst hkey
      have hupdate := countFor_update_self (p := Call.live) found phase
      simp only [Call.live] at hupdate live perKey ⊢
      omega
    · rw [countFor_update_of_ne found phase hkey]
      exact h.perKey key
  queueBound := queueBound
  queuePerKey key := by
    simp only [calls_setPhase]
    by_cases hkey : key = call.key
    · subst hkey
      have hupdate := countFor_update_self (p := Call.queued) found phase
      simp only [Call.queued] at hupdate queued queuePerKey ⊢
      omega
    · rw [countFor_update_of_ne found phase hkey]
      exact h.queuePerKey key

theorem began (h : Sound limits sys) (fresh : sys.calls ticket = none) (key : Uuid) :
    Sound limits
      { sys with calls := update sys.calls ticket (some ⟨key, .registering false⟩) } := by
  have hcount : ∀ p : Call → Bool, p ⟨key, .registering false⟩ = false →
      count p (update sys.calls ticket (some ⟨key, .registering false⟩)) =
        count p sys.calls := by
    intro p hp
    have hupdate := count_update (p := p) (m := sys.calls) ticket
      (some ⟨key, .registering false⟩)
    simpa [fresh, hp] using hupdate
  have hfor : ∀ p : Call → Bool, p ⟨key, .registering false⟩ = false → ∀ key',
      countFor p key' (update sys.calls ticket (some ⟨key, .registering false⟩)) =
        countFor p key' sys.calls := by
    intro p hp key'
    exact hcount _ (by simp [hp])
  refine ⟨h.healthy, ?_, ?_, h.tickets, fun other key' => ?_, h.total, fun key' => ?_,
    h.queueBound, fun key' => ?_⟩
  · exact h.active.trans (hcount _ rfl).symm
  · refine h.keys.trans (funext fun key' => ?_)
    rw [keyEntry, keyEntry, hfor _ rfl, hfor _ rfl]
  · rw [h.queue]
    by_cases hother : other = ticket
    · subst hother
      simp [fresh, queued, Phase.queued]
    · simp [hother]
  · rw [hfor _ rfl]
    exact h.perKey key'
  · rw [hfor _ rfl]
    exact h.queuePerKey key'

variable {notified : Bool}

theorem enqueued (h : Sound limits sys) (found : sys.calls ticket = some call)
    (hphase : call.phase = .inspecting false notified)
    (room : sys.state.queue.length < limits.queue)
    (roomForKey : (sys.state.countsOf call.key).queued < limits.queuePerKey) :
    Sound limits (({ sys with state := sys.state.enqueue ticket call.key }).setPhase ticket call
      (.sleeping notified)) := by
  have hcounts := h.countsOf call.key
  have hlive : call.live = false := by rw [live, hphase]; rfl
  have hqueued : call.queued = false := by rw [queued, hphase]; rfl
  have hout : ticket ∉ sys.state.queue.map Prod.fst := by
    intro hmem
    obtain ⟨⟨other, key⟩, hentry, rfl⟩ := mem_map.mp hmem
    exact h.not_mem_queue found hqueued key hentry
  rw [hcounts] at roomForKey
  refine h.placed (sys.state.enqueue ticket call.key)
    ⟨countFor live call.key sys.calls, countFor queued call.key sys.calls + 1⟩ found
    ?_ ?_ ?_ ?_ ?_ (fun other key => ?_) h.total (h.perKey _) ?_ roomForKey
  · rw [hlive]
    rfl
  · rw [enqueue, hcounts, entry_of_pos (.inr (Nat.succ_pos _))]
  · rw [hlive]
    rfl
  · rw [hqueued]
    rfl
  · rw [enqueue, map_append]
    exact nodup_append'.mpr ⟨h.tickets, by simp, by simpa using hout⟩
  · rw [enqueue, mem_append, mem_singleton, Prod.mk.injEq]
    by_cases hother : other = ticket
    · subst hother
      have hnot := h.not_mem_queue found hqueued key
      simp [hnot, Phase.queued, eq_comm]
    · simp [hother]
  · rw [enqueue, length_append]
    exact room

theorem grantedNew (h : Sound limits sys) (positive : 0 < limits.perKey)
    (found : sys.calls ticket = some call) (hphase : call.phase = .inspecting false notified)
    (eligible : sys.state.eligible limits call.key = true) :
    Sound limits (({ sys with state := sys.state.grant call.key }).setPhase ticket call
      .granted) := by
  have hcounts := h.countsOf call.key
  obtain ⟨htotal, hperKey⟩ := (h.eligible_iff call.key positive).mp eligible
  have hlive : call.live = false := by rw [live, hphase]; rfl
  have hqueued : call.queued = false := by rw [queued, hphase]; rfl
  refine h.placed (sys.state.grant call.key)
    ⟨countFor live call.key sys.calls + 1, countFor queued call.key sys.calls⟩ found
    ?_ ?_ ?_ ?_ h.tickets (fun other key => ?_) htotal hperKey h.queueBound (h.queuePerKey _)
  · rw [hlive]
    rfl
  · rw [grant, hcounts, entry_of_pos (.inl (Nat.succ_pos _))]
  · rw [hlive]
    rfl
  · rw [hqueued]
    rfl
  · by_cases hother : other = ticket
    · subst hother
      -- the ticket was not in the queue, and is not now
      simpa [Phase.queued, grant] using h.not_mem_queue found hqueued key
    · simp [hother, grant]

theorem queue_erase (h : Sound limits sys) {phase : Phase} (hphase : phase.queued = false)
    (other key : Uuid) :
    (other, key) ∈ sys.state.queue.eraseP (fun entry => decide (entry.1 = ticket)) ↔
      if other = ticket then phase.queued = true ∧ call.key = key
      else (other, key) ∈ sys.state.queue := by
  rw [mem_eraseTicket h.tickets]
  by_cases hother : other = ticket
  · simp [hother, hphase]
  · simp [hother]

theorem tickets_erase (h : Sound limits sys) :
    ((sys.state.queue.eraseP fun entry => decide (entry.1 = ticket)).map Prod.fst).Nodup :=
  h.tickets.sublist (eraseP_sublist.map _)

theorem length_erase_le (h : Sound limits sys) :
    (sys.state.queue.eraseP fun entry => decide (entry.1 = ticket)).length ≤ limits.queue :=
  Nat.le_trans eraseP_sublist.length_le h.queueBound

/-- The first eligible ticket takes a free slot; nothing of `dequeue` can fail. -/
theorem grantedQueued (h : Sound limits sys) (positive : 0 < limits.perKey)
    (found : sys.calls ticket = some call) (hphase : call.phase = .inspecting true notified)
    (eligible : sys.state.eligible limits call.key = true) :
    Sound limits (sys.unlock ticket call ((sys.state.dequeue ticket call.key).map fun state =>
      (.granted, state.grant call.key))) := by
  obtain ⟨htotal, hperKey⟩ := (h.eligible_iff call.key positive).mp eligible
  have hlive : call.live = false := by rw [Call.live, hphase]; rfl
  have hqueued : call.queued = true := by rw [Call.queued, hphase]; rfl
  have hpos := countFor_pos (p := Call.queued) found hqueued
  have hdequeue : sys.state.dequeue ticket call.key = some { sys.state with
      queue := sys.state.queue.eraseP fun entry => decide (entry.1 = ticket),
      keys := update sys.state.keys call.key
        (some ⟨countFor Call.live call.key sys.calls,
          countFor Call.queued call.key sys.calls - 1⟩) } := by
    simp only [State.dequeue, h.find_ticket found hqueued, h.keys_of_queued found hqueued,
      checkedPred_of_pos hpos, bind_eq_bind, bind_some]
  rw [hdequeue]
  refine h.placed _ ⟨countFor Call.live call.key sys.calls + 1,
    countFor Call.queued call.key sys.calls - 1⟩ found ?_ ?_ ?_ ?_ h.tickets_erase
    (h.queue_erase rfl) htotal hperKey h.length_erase_le
    (Nat.le_trans (Nat.sub_le _ _) (h.queuePerKey _))
  · rw [hlive]
    rfl
  · simp only [State.grant, State.countsOf, update_self, getD_some,
      update_idem]
    rw [entry_of_pos (.inl (Nat.succ_pos _))]
  · rw [hlive]
    rfl
  · rw [hqueued]
    exact Nat.sub_add_cancel hpos

/-- `Ticket::drop` finds its ticket and the entry of its key. -/
theorem ticketDropped (h : Sound limits sys) {error : Option AdmissionError}
    (found : sys.calls ticket = some call) (hphase : call.phase = .leaving error) :
    Sound limits (sys.unlock ticket call ((sys.state.dropTicket ticket).map fun state =>
      (.left error, state))) := by
  have hlive : call.live = false := by rw [Call.live, hphase]; rfl
  have hqueued : call.queued = true := by rw [Call.queued, hphase]; rfl
  have hpos := countFor_pos (p := Call.queued) found hqueued
  have hdrop : sys.state.dropTicket ticket = some { sys.state with
      queue := sys.state.queue.eraseP fun entry => decide (entry.1 = ticket),
      keys := update sys.state.keys call.key
        (Counts.entry ⟨countFor Call.live call.key sys.calls,
          countFor Call.queued call.key sys.calls - 1⟩) } := by
    simp only [dropTicket, h.find_ticket found hqueued, removeTicket,
      h.keys_of_queued found hqueued, checkedPred_of_pos hpos, bind_eq_bind,
      bind_some]
  rw [hdrop]
  refine h.placed _ ⟨countFor Call.live call.key sys.calls,
    countFor Call.queued call.key sys.calls - 1⟩ found ?_ rfl ?_ ?_ h.tickets_erase
    (h.queue_erase rfl) h.total (h.perKey _) h.length_erase_le
    (Nat.le_trans (Nat.sub_le _ _) (h.queuePerKey _))
  · rw [hlive]
    rfl
  · rw [hlive]
    rfl
  · rw [hqueued]
    exact Nat.sub_add_cancel hpos

/-- `Lease::drop` finds a positive count and the entry of its key. -/
theorem leaseDropped (h : Sound limits sys) (found : sys.calls ticket = some call)
    (hphase : call.phase = .releasing) :
    Sound limits (sys.unlock ticket call ((sys.state.dropLease call.key).map fun state =>
      (.left none, state))) := by
  have hlive : call.live = true := by rw [Call.live, hphase]; rfl
  have hqueued : call.queued = false := by rw [Call.queued, hphase]; rfl
  have hpos := countFor_pos (p := Call.live) found hlive
  have hactive : 0 < sys.state.active := h.active ▸ count_pos found hlive
  have hdrop : sys.state.dropLease call.key = some { sys.state with
      active := sys.state.active - 1,
      keys := update sys.state.keys call.key
        (Counts.entry ⟨countFor Call.live call.key sys.calls - 1,
          countFor Call.queued call.key sys.calls⟩) } := by
    simp only [dropLease, h.keys_of_live found hlive, checkedPred_of_pos hpos,
      checkedPred_of_pos hactive, bind_eq_bind, bind_some]
  rw [hdrop]
  refine h.placed _ ⟨countFor Call.live call.key sys.calls - 1,
    countFor Call.queued call.key sys.calls⟩ found ?_ rfl ?_ ?_ h.tickets (fun other key => ?_)
    (Nat.le_trans (Nat.sub_le _ _) h.total) (Nat.le_trans (Nat.sub_le _ _) (h.perKey _))
    h.queueBound (h.queuePerKey _)
  · rw [hlive]
    exact Nat.sub_add_cancel hactive
  · rw [hlive]
    exact Nat.sub_add_cancel hpos
  · rw [hqueued]
    rfl
  · by_cases hother : other = ticket
    · subst hother
      simpa [Phase.queued] using h.not_mem_queue found hqueued key
    · simp [hother]

theorem step (h : Sound limits sys) (positive : 0 < limits.perKey) (event : Event) :
    Sound limits (sys.step limits event) := by
  have heffect := step_effect limits event sys
  generalize sys.step limits event = sys' at heffect
  cases heffect with
  | quiet sys' counts places healthy _ _ _ _ => exact h.same counts places healthy
  | began ticket key fresh => exact h.began fresh key
  | rested ticket call notified found phase _ =>
    refine h.same ⟨rfl, rfl, rfl, id⟩ (fun other => ?_) rfl
    by_cases hother : other = ticket
    · subst hother
      simp [found, place, phase, Phase.live, Phase.queued]
    · simp [hother]
  | enqueued ticket call notified found phase _ room roomForKey =>
    exact h.enqueued found phase room roomForKey
  | grantedNew ticket call notified found phase eligible _ =>
    exact h.grantedNew positive found phase eligible
  | grantedQueued ticket call notified found phase eligible _ =>
    exact h.grantedQueued positive found phase eligible
  | ticketDropped ticket call error found phase => exact h.ticketDropped found phase
  | leaseDropped ticket call found phase => exact h.leaseDropped found phase

end Sound

theorem check_ok {u : Unit} (h : limits.check = .ok u) : 0 < limits.total ∧ 0 < limits.perKey := by
  unfold AdmissionLimits.check at h
  split at h
  · cases h
  · omega

theorem newAdmission_ok (h : newAdmission limits = .ok sys) : sys = {} ∧ 0 < limits.perKey := by
  unfold newAdmission at h
  cases hcheck : limits.check with
  | error message =>
    rw [hcheck] at h
    cases h
  | ok u =>
    rw [hcheck] at h
    exact ⟨(Except.ok.inj h).symm, (check_ok hcheck).2⟩

theorem sound_run (h : newAdmission limits = .ok sys) (events : List Event) :
    Sound limits (run limits events sys) := by
  obtain ⟨rfl, positive⟩ := newAdmission_ok h
  exact Relational.runAll_invariant (fun event _ h => h.step positive event) events _
    (sound_empty limits)

end Steps

/-! ## The invariant -/

/-- **Bounded admission keeps its counters and limits.**  For limits that `new` accepts, after any
steps of any number of callers:

* the lock is not poisoned: no subtraction, `unwrap` or `expect` failed;
* `active` is the number of live leases and the sum of the counts of the keys, at most `total`;
  the count of a key is the number of its live leases, at most `per_key`;
* the queue holds every waiting ticket once, with its key; its length is at most `queue` and is the
  sum of the queued counts of the keys, each the number of its waiting tickets and at most
  `queue_per_key`;
* the entry of a key has a positive count. -/
theorem bounded_admission_invariant (limits : AdmissionLimits) (sys : System)
    (accepted : newAdmission limits = .ok sys) (events : List Event) :
    (System.run limits events sys).poisoned = false ∧
      ((System.run limits events sys).state.active =
          count Call.live (System.run limits events sys).calls ∧
        (System.run limits events sys).state.active =
          weight Counts.active (System.run limits events sys).state.keys ∧
        (System.run limits events sys).state.active ≤ limits.total ∧
        ∀ key, ((System.run limits events sys).state.countsOf key).active =
            countFor Call.live key (System.run limits events sys).calls ∧
          ((System.run limits events sys).state.countsOf key).active ≤ limits.perKey) ∧
      (((System.run limits events sys).state.queue.map Prod.fst).Nodup ∧
        (∀ ticket key, (ticket, key) ∈ (System.run limits events sys).state.queue ↔
          ∃ call, (System.run limits events sys).calls ticket = some call ∧
            call.queued = true ∧ call.key = key) ∧
        (System.run limits events sys).state.queue.length ≤ limits.queue ∧
        (System.run limits events sys).state.queue.length =
          weight Counts.queued (System.run limits events sys).state.keys ∧
        ∀ key, ((System.run limits events sys).state.countsOf key).queued =
            countFor Call.queued key (System.run limits events sys).calls ∧
          ((System.run limits events sys).state.countsOf key).queued ≤ limits.queuePerKey) ∧
      ∀ key counts, (System.run limits events sys).state.keys key = some counts →
        0 < counts.active ∨ 0 < counts.queued := by
  have h := sound_run accepted events
  generalize System.run limits events sys = sys' at h ⊢
  have hsum : ∀ (f : Counts → ℕ) (p : Call → Bool), f {} = 0 →
      (∀ key, f (sys'.state.countsOf key) = countFor p key sys'.calls) →
      weight f sys'.state.keys = count p sys'.calls := by
    intro f p hf hkeys
    rw [← sum_count Call.key]
    refine Finset.sum_congr rfl fun key _ => ?_
    rw [← countFor, ← hkeys, State.countsOf]
    cases sys'.state.keys key with
    | none => exact hf.symm
    | some counts => rfl
  have hlive : ∀ key, (sys'.state.countsOf key).active = countFor Call.live key sys'.calls :=
    fun key => by rw [h.countsOf]
  have hqueued : ∀ key, (sys'.state.countsOf key).queued = countFor Call.queued key sys'.calls :=
    fun key => by rw [h.countsOf]
  have hlength : sys'.state.queue.length = count Call.queued sys'.calls := by
    rw [count_eq_length h.tickets fun ticket => ?_, List.length_map]
    rw [List.mem_map]
    constructor
    · rintro ⟨⟨ticket, key⟩, hmem, rfl⟩
      obtain ⟨call, hcall, hcallQueued, -⟩ := (h.queue ticket key).mp hmem
      rw [hcall]
      exact hcallQueued
    · intro hany
      obtain ⟨call, hcall, hcallQueued⟩ := (Option.any_eq_true _ _).mp hany
      exact ⟨_, h.mem_queue hcall hcallQueued, rfl⟩
  refine ⟨h.healthy, ⟨h.active, ?_, h.total, fun key => ⟨hlive key, ?_⟩⟩,
    ⟨h.tickets, h.queue, h.queueBound, ?_, fun key => ⟨hqueued key, ?_⟩⟩, fun key counts hkey => ?_⟩
  · rw [h.active, hsum Counts.active Call.live rfl hlive]
  · rw [hlive]
    exact h.perKey key
  · rw [hlength, hsum Counts.queued Call.queued rfl hqueued]
  · rw [hqueued]
    exact h.queuePerKey key
  · rw [h.keys, keyEntry, Counts.entry] at hkey
    split at hkey
    · cases hkey
    · rename_i hne
      obtain rfl := Option.some.inj hkey
      omega

/-- One slot, one place in the queue. -/
def tightLimits : AdmissionLimits := ⟨1, 1, 1, 1, 10 ^ 9⟩

theorem bounded_admission_invariant_tight :
    newAdmission tightLimits = .ok {} ∧
      (System.run tightLimits [.acquire 1 7, .move .register 1, .inspect 1 false, .acquire 2 7,
        .move .register 2, .inspect 2 false, .move .cancel 2, .dropTicket 2, .notify 1]
        {}).poisoned = false :=
  ⟨rfl, (bounded_admission_invariant tightLimits {} rfl _).1⟩

end KeyCompute.Admission
