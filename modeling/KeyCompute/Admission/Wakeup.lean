import KeyCompute.Admission.Bounds

/-!
# Order and wake-ups in bounded admission

A slot goes to the first eligible ticket of the queue, or to a new caller while no queued ticket is
eligible; tickets stay in the order of their arrival (`Later`).

When a ticket becomes the first eligible one, some caller has just given the lock back and owes a
`notify_waiters`.  A waiter sleeps only after it found another ticket first, and is registered since
before that look, so an eligible ticket never sleeps unnoticed (`Tended`).
-/

namespace KeyCompute.Admission

open State List Option

section Order

variable {α : Type} {a b : α} {queue queue' : List α}

theorem mem_front_of_before {front back : List α} (unique : (front ++ b :: back).Nodup)
    (before : [a, b].Sublist (front ++ b :: back)) : a ∈ front := by
  induction front with
  | nil | cons => grind

theorem before_of_sublist (sub : queue'.Sublist queue) (unique : queue.Nodup)
    (before : [a, b].Sublist queue) (ha : a ∈ queue') (hb : b ∈ queue') :
    [a, b].Sublist queue' := by
  induction sub with
  | slnil => cases ha
  | cons | cons_cons => grind

end Order

variable {limits : AdmissionLimits} {sys sys' : System} {ticket : Uuid} {call : Call}

/-! ## The first eligible ticket -/

theorem eligibleTicket_eq_some :
    sys.state.eligibleTicket limits = some ticket ↔
      ∃ key front back, sys.state.queue = front ++ (ticket, key) :: back ∧
        sys.state.eligible limits key = true ∧
        ∀ entry ∈ front, sys.state.eligible limits entry.2 = false := by
  unfold eligibleTicket
  rw [map_eq_some_iff]
  constructor
  · rintro ⟨⟨ticket', key⟩, hfind, rfl⟩
    obtain ⟨heligible, front, back, hqueue, hfront⟩ := find?_eq_some_iff_append.mp hfind
    exact ⟨key, front, back, hqueue, heligible, fun entry hentry => by
      simpa using hfront entry hentry⟩
  · rintro ⟨key, front, back, hqueue, heligible, hfront⟩
    refine ⟨(ticket, key), find?_eq_some_iff_append.mpr ⟨heligible, front, back, hqueue,
      fun entry hentry => ?_⟩, rfl⟩
    simp [hfront entry hentry]

theorem eligibleTicket_eq_none :
    sys.state.eligibleTicket limits = none ↔
      ∀ entry ∈ sys.state.queue, sys.state.eligible limits entry.2 = false := by
  unfold eligibleTicket
  rw [map_eq_none_iff, find?_eq_none]
  simp

theorem Sound.eligible_of_first (h : Sound limits sys) (found : sys.calls ticket = some call)
    (first : sys.state.eligibleTicket limits = some ticket) :
    sys.state.eligible limits call.key = true := by
  obtain ⟨key, front, back, hqueue, heligible, -⟩ := eligibleTicket_eq_some.mp first
  obtain ⟨call', hcall', -, hkey⟩ := (h.queue ticket key).mp (by rw [hqueue]; simp)
  rw [found] at hcall'
  rw [some.inj hcall', hkey]
  exact heligible

theorem eligible_enqueue (state : State) (positive : 0 < limits.perKey) (ticket key key' : Uuid) :
    (state.enqueue ticket key).eligible limits key' = state.eligible limits key' := by
  unfold eligible enqueue
  by_cases hkey : key' = key
  · subst hkey
    simp only [Function.update_self, countsOf]
    cases state.keys key' with
    | none => simp [positive]
    | some counts => rfl
  · simp only [Function.update_of_ne hkey]

/-! ## Wake-ups -/

/-- **No eligible ticket sleeps unnoticed**: if the first eligible one sleeps without a
notification, a caller is about to notify. -/
def Tended (limits : AdmissionLimits) (sys : System) : Prop :=
  sys.state.closed = false → ∀ ticket, sys.state.eligibleTicket limits = some ticket →
    sys.Asleep ticket → sys.Owed

theorem owed_setPhase {phase : Phase} (owes : phase.owes = true) :
    (sys.setPhase ticket call phase).Owed :=
  .inr ⟨ticket, { call with phase }, by simp, owes⟩

theorem owed_unlock {result : Option (Phase × State)}
    (owes : ∀ phase state, result = some (phase, state) → phase.owes = true)
    (healthy : (sys.unlock ticket call result).poisoned = false) :
    (sys.unlock ticket call result).Owed := by
  cases result with
  | none => cases healthy
  | some pair => exact owed_setPhase (owes pair.1 pair.2 rfl)

/-- A call that did not owe a notification goes to sleep; the others are as they were. -/
theorem owed_of_sleeping {state : State} {notified : Bool} (found : sys.calls ticket = some call)
    (quits : call.phase.owes = false) (h : sys.Owed) :
    (({ sys with state }).setPhase ticket call (.sleeping notified)).Owed := by
  obtain hclosers | ⟨other, call', hcall', howes⟩ := h
  · exact .inl hclosers
  · have hother : other ≠ ticket := by
      rintro rfl
      rw [found] at hcall'
      rw [← some.inj hcall', quits] at howes
      cases howes
    exact .inr ⟨other, call', by simpa [hother] using hcall', howes⟩

theorem asleep_of_ne {state : State} {phase : Phase} {other : Uuid} (hother : other ≠ ticket)
    (h : (({ sys with state }).setPhase ticket call phase).Asleep other) : sys.Asleep other := by
  obtain ⟨call', hcall', hasleep⟩ := h
  exact ⟨call', by simpa [hother] using hcall', hasleep⟩

theorem Tended.step (h : Tended limits sys) (sound : Sound limits sys)
    (positive : 0 < limits.perKey) (event : Event) : Tended limits (sys.step limits event) := by
  have healthy := (sound.step positive event).healthy
  have heffect := step_effect limits event sys
  generalize sys.step limits event = sys' at heffect healthy
  intro hopen first hfirst hasleep
  cases heffect with
  | quiet sys' counts _ _ asleep owed _ _ =>
    have hopen' : sys.state.closed = false := by
      cases hclosed : sys.state.closed with
      | false => rfl
      | true => rw [counts.closed hclosed] at hopen; cases hopen
    have hsame : sys'.state.eligibleTicket limits = sys.state.eligibleTicket limits := by
      unfold eligibleTicket eligible
      rw [counts.queue, counts.active, counts.keys]
    obtain howed | hnobody := owed (h hopen' first (hsame ▸ hfirst) (asleep first hasleep))
    · exact howed
    · exact absurd hasleep (hnobody first)
  | began ticket key fresh =>
    have hother : first ≠ ticket := by
      rintro rfl
      obtain ⟨call, hcall, hcallAsleep⟩ := hasleep
      simp only [Function.update_self, some.injEq] at hcall
      rw [← hcall] at hcallAsleep
      cases hcallAsleep
    obtain ⟨call, hcall, hcallAsleep⟩ := hasleep
    obtain hclosers | ⟨other, call', hcall', howes⟩ :=
      h hopen first hfirst ⟨call, by simpa [hother] using hcall, hcallAsleep⟩
    · exact .inl hclosers
    · refine .inr ⟨other, call', ?_, howes⟩
      simp only
      rw [Function.update_of_ne]
      · exact hcall'
      · rintro rfl
        rw [fresh] at hcall'
        cases hcall'
  | rested ticket call notified found phase blocked =>
    have hquits : call.phase.owes = false := by rw [phase]; rfl
    by_cases hother : first = ticket
    · -- a waiter that looked and rested is not first
      subst hother
      exact absurd ⟨sound.eligible_of_first found hfirst, hfirst⟩ blocked
    · exact owed_of_sleeping found hquits (h hopen first hfirst (asleep_of_ne hother hasleep))
  | enqueued ticket call notified found phase blocked _ _ =>
    have hquits : call.phase.owes = false := by rw [phase]; rfl
    have hfind : sys.state.eligibleTicket limits = some first := by
      -- a new ticket at the end of the queue is first only if it could have been granted
      simp only [System.state_setPhase, eligibleTicket, eligible_enqueue _ positive]
        at hfirst
      simp only [enqueue, find?_append] at hfirst
      cases hold : sys.state.queue.find? (fun entry => sys.state.eligible limits entry.2) with
      | some entry =>
        rw [hold] at hfirst
        rw [eligibleTicket, hold]
        exact hfirst
      | none =>
        rw [hold, none_or] at hfirst
        obtain ⟨entry, hentry, -⟩ := map_eq_some_iff.mp hfirst
        have heligible := find?_some hentry
        rw [mem_singleton.mp (mem_of_find?_eq_some hentry)] at heligible
        exact absurd ⟨heligible, by rw [eligibleTicket, hold]; rfl⟩ blocked
    have hother : first ≠ ticket := by
      rintro rfl
      have hqueued : call.queued = false := by rw [Call.queued, phase]; rfl
      obtain ⟨key, front, back, hqueue, -, -⟩ := eligibleTicket_eq_some.mp hfind
      exact sound.not_mem_queue found hqueued key (by rw [hqueue]; simp)
    exact owed_of_sleeping found hquits (h hopen first hfind (asleep_of_ne hother hasleep))
  | grantedNew ticket call notified found phase _ _ => exact owed_setPhase rfl
  | grantedQueued | ticketDropped | leaseDropped =>
    refine owed_unlock (fun phase state hsome => ?_) healthy
    obtain ⟨state', -, heq⟩ := map_eq_some_iff.mp hsome
    rw [← (Prod.mk.inj heq).1]
    rfl

/-! ## Arrival -/

/-- **What a run keeps**: calls that entered stay entered and do not come back into the queue, and
tickets that stay in the queue keep their order. -/
structure Later (sys sys' : System) : Prop where
  entered : ∀ ticket, sys.Entered ticket → sys'.Entered ticket
  leaves : ∀ entry ∈ sys'.state.queue, sys.Entered entry.1 → entry ∈ sys.state.queue
  order : ∀ a b, [a, b].Sublist sys.state.queue → a ∈ sys'.state.queue → b ∈ sys'.state.queue →
    [a, b].Sublist sys'.state.queue

theorem entered_unlock {phase : Phase} {result : Option State} {other : Uuid}
    (found : sys.calls ticket = some call) (entered : phase.entered = true)
    (h : sys.Entered other) :
    (sys.unlock ticket call (result.map fun state => (phase, state))).Entered other := by
  cases result with
  | none => exact h
  | some state => exact entered_setPhase found (fun _ => entered) h

theorem Sound.entered_of_mem (h : Sound limits sys) {entry : Uuid × Uuid}
    (hmem : entry ∈ sys.state.queue) : sys.Entered entry.1 := by
  obtain ⟨call, hcall, hqueued, -⟩ := (h.queue entry.1 entry.2).mp hmem
  refine ⟨call, hcall, ?_⟩
  unfold Call.queued at hqueued
  cases hphase : call.phase <;> simp_all [Phase.queued, Phase.entered]

/-- A step takes entries out of the queue, or adds a ticket that never entered. -/
theorem queue_step (limits : AdmissionLimits) (event : Event) (sys : System) :
    (sys.step limits event).state.queue.Sublist sys.state.queue ∨
      ∃ ticket key, (sys.step limits event).state.queue = sys.state.queue ++ [(ticket, key)] ∧
        ¬ sys.Entered ticket := by
  have heffect := step_effect limits event sys
  generalize sys.step limits event = sys' at heffect
  cases heffect with
  | quiet sys' counts _ _ _ _ _ _ => exact .inl (counts.queue ▸ Sublist.refl _)
  | began | rested => exact .inl (Sublist.refl _)
  | enqueued ticket call notified found phase _ _ _ =>
    refine .inr ⟨ticket, call.key, rfl, ?_⟩
    rintro ⟨call', hcall', hentered⟩
    rw [found] at hcall'
    rw [← some.inj hcall', phase] at hentered
    cases hentered
  | grantedNew ticket call notified found phase _ _ => exact .inl (Sublist.refl _)
  | grantedQueued ticket call notified found phase _ _ =>
    left
    cases hdequeue : sys.state.dequeue ticket call.key with
    | none => exact Sublist.refl _
    | some state =>
      simp only [dequeue, bind_eq_bind, bind_eq_some_iff] at hdequeue
      obtain ⟨-, -, counts, -, queued, -, hstate⟩ := hdequeue
      obtain rfl := some.inj hstate
      exact eraseP_sublist
  | ticketDropped ticket call error found phase =>
    left
    cases hdrop : sys.state.dropTicket ticket with
    | none => exact Sublist.refl _
    | some state =>
      unfold dropTicket at hdrop
      split at hdrop
      · obtain rfl := some.inj hdrop
        exact Sublist.refl _
      · simp only [removeTicket, bind_eq_bind, bind_eq_some_iff] at hdrop
        obtain ⟨counts, -, queued, -, hstate⟩ := hdrop
        obtain rfl := some.inj hstate
        exact eraseP_sublist
  | leaseDropped ticket call found phase =>
    left
    cases hdrop : sys.state.dropLease call.key with
    | none => exact Sublist.refl _
    | some state =>
      simp only [dropLease, bind_eq_bind, bind_eq_some_iff] at hdrop
      obtain ⟨active, -, counts, -, keyActive, -, hstate⟩ := hdrop
      obtain rfl := some.inj hstate
      exact Sublist.refl _

theorem entered_step (event : Event) (h : sys.Entered ticket) :
    (sys.step limits event).Entered ticket := by
  have heffect := step_effect limits event sys
  generalize sys.step limits event = sys' at heffect
  cases heffect with
  | quiet sys' _ _ _ _ _ _ entered => exact entered ticket h
  | began other key fresh =>
    obtain ⟨call, hcall, hentered⟩ := h
    have hother : ticket ≠ other := by
      rintro rfl
      rw [fresh] at hcall
      cases hcall
    exact ⟨call, by simpa [hother] using hcall, hentered⟩
  | rested other call notified found phase _ => exact entered_setPhase found (fun _ => rfl) h
  | enqueued other call notified found phase _ _ _ =>
    exact entered_setPhase found (fun _ => rfl) h
  | grantedNew other call notified found phase _ _ =>
    exact entered_setPhase found (fun _ => rfl) h
  | grantedQueued other call notified found phase _ _ =>
    cases sys.state.dequeue other call.key with
    | none => exact h
    | some state =>
      exact entered_setPhase found (fun _ => rfl) h
  | ticketDropped other call error found phase => exact entered_unlock found rfl h
  | leaseDropped other call found phase => exact entered_unlock found rfl h

theorem Sound.later (h : Sound limits sys) (positive : 0 < limits.perKey) (events : List Event) :
    Later sys (System.run limits events sys) := by
  induction events generalizing sys with
  | nil => exact ⟨fun _ h => h, fun _ h _ => h, fun _ _ h _ _ => h⟩
  | cons event rest ih =>
    have hrest := ih (h.step positive event)
    -- an entry of the last queue that entered before the step was in the queue before it
    have hleaves : ∀ entry ∈ (sys.step limits event).state.queue, sys.Entered entry.1 →
        entry ∈ sys.state.queue := by
      intro entry hentry hentered
      rcases queue_step limits event sys with hsub | ⟨ticket, key, heq, hfresh⟩
      · exact hsub.subset hentry
      · grind [mem_singleton, Sound, Later]
    have hstays : ∀ entry ∈ sys.state.queue,
        entry ∈ (System.run limits (event :: rest) sys).state.queue →
        entry ∈ (sys.step limits event).state.queue := fun entry hentry hlast =>
      hrest.leaves entry hlast (entered_step event (h.entered_of_mem hentry))
    refine ⟨fun ticket hentered => hrest.entered ticket (entered_step event hentered),
      fun entry hentry hentered => ?_, fun a b hbefore ha hb => ?_⟩
    · exact hleaves entry (hrest.leaves entry hentry (entered_step event hentered)) hentered
    · have ha' := hstays a (hbefore.subset (by simp)) ha
      have hb' := hstays b (hbefore.subset (by simp)) hb
      refine hrest.order a b ?_ ha hb
      rcases queue_step limits event sys with hsub | ⟨ticket, key, heq, -⟩
      · exact before_of_sublist hsub h.tickets.of_map hbefore ha' hb'
      · grind

/-! ## Grants -/

def System.Grants (limits : AdmissionLimits) (sys : System) (event : Event) (ticket : Uuid) :
    Prop :=
  (¬ ∃ call, sys.calls ticket = some call ∧ call.phase = .granted) ∧
    ∃ call, (sys.step limits event).calls ticket = some call ∧ call.phase = .granted

theorem grants_cases {event : Event} (h : sys.Grants limits event ticket) :
    ∃ call notified, sys.calls ticket = some call ∧ sys.state.eligible limits call.key = true ∧
      (call.phase = .inspecting true notified ∧
          sys.state.eligibleTicket limits = some ticket ∨
        call.phase = .inspecting false notified ∧ sys.state.eligibleTicket limits = none) := by
  obtain ⟨hbefore, call', hcall', hgranted⟩ := h
  have heffect := step_effect limits event sys
  generalize sys.step limits event = sys' at heffect hcall'
  -- a call was granted before, unless it is the one whose phase is set to `granted`
  have hset {other : Uuid} {call : Call} {phase : Phase} {state : State}
      (hafter : (({ sys with state }).setPhase other call phase).calls ticket = some call') :
      ticket = other ∧ phase = .granted := by
    by_cases hne : ticket = other
    · subst hne
      simp only [System.calls_setPhase, Function.update_self, some.injEq] at hafter
      exact ⟨rfl, by rw [← hgranted, ← hafter]⟩
    · exact absurd ⟨call', by simpa [hne] using hafter, hgranted⟩ hbefore
  have hunlock {other : Uuid} {call : Call} {phase : Phase} {result : Option State}
      {f : State → State} (hafter : (sys.unlock other call
        (result.map fun state => (phase, f state))).calls ticket = some call') :
      ticket = other ∧ phase = .granted := by
    cases result with
    | none => exact absurd ⟨call', hafter, hgranted⟩ hbefore
    | some state => exact hset hafter
  cases heffect with
  | quiet sys' _ _ _ _ _ granted _ => exact absurd (granted ticket call' hcall' hgranted) hbefore
  | began other key fresh => grind
  | rested | enqueued => exact nomatch (hset hcall').2
  | grantedNew other call notified found phase eligible first =>
    obtain ⟨rfl, -⟩ := hset hcall'
    exact ⟨call, notified, found, eligible, .inr ⟨phase, first⟩⟩
  | grantedQueued other call notified found phase eligible first =>
    obtain ⟨rfl, -⟩ := hunlock hcall'
    exact ⟨call, notified, found, eligible, .inl ⟨phase, first⟩⟩
  | ticketDropped | leaseDropped => exact nomatch (hunlock hcall').2

theorem tended_run (h : newAdmission limits = .ok sys) (events : List Event) :
    Tended limits (System.run limits events sys) := by
  obtain ⟨rfl, positive⟩ := newAdmission_ok h
  have hboth : Sound limits (System.run limits events {}) ∧
      Tended limits (System.run limits events {}) :=
    Relational.runAll_invariant (I := fun sys => Sound limits sys ∧ Tended limits sys)
      (fun event _ h => ⟨h.1.step positive event, h.2.step h.1 positive event⟩) events {}
      ⟨sound_empty limits, fun _ _ hfirst => by cases hfirst⟩
  exact hboth.2

/-- **Admission keeps the order and loses no wake-up.**  For limits that `new` accepts, after any
steps of any callers:

* a slot is granted to the first ticket in the queue whose key is eligible, or, while no queued
  ticket is eligible, to a caller that was never in the queue;
* of two tickets of one key, the later one is not granted while the earlier one still waits;
* while the admission is open, the waiter of the first eligible ticket is running or has its
  notification, or a caller has just given the lock back and is about to notify all waiters. -/
theorem admission_order_and_wakeup (limits : AdmissionLimits) (sys : System)
    (accepted : newAdmission limits = .ok sys) (events : List Event) :
    (∀ event ticket, (System.run limits events sys).Grants limits event ticket →
      (∃ key front back, (System.run limits events sys).state.queue =
          front ++ (ticket, key) :: back ∧
        (System.run limits events sys).state.eligible limits key = true ∧
        ∀ entry ∈ front, (System.run limits events sys).state.eligible limits entry.2 = false) ∨
      ((∀ entry ∈ (System.run limits events sys).state.queue,
          (System.run limits events sys).state.eligible limits entry.2 = false) ∧
        ∀ earlier rest, events = earlier ++ rest →
          ticket ∉ (System.run limits earlier sys).state.queue.map Prod.fst)) ∧
    (∀ rest first second key,
      [(first, key), (second, key)].Sublist (System.run limits events sys).state.queue →
      ∀ event, (System.run limits (events ++ rest) sys).Grants limits event second →
        (first, key) ∉ (System.run limits (events ++ rest) sys).state.queue) ∧
    ((System.run limits events sys).state.closed = false → ∀ ticket,
      (System.run limits events sys).state.eligibleTicket limits = some ticket →
      ∃ call, (System.run limits events sys).calls ticket = some call ∧
        (call.phase = .sleeping true ∨ (∀ notified, call.phase ≠ .sleeping notified) ∨
          (System.run limits events sys).Owed)) := by
  obtain ⟨-, positive⟩ := newAdmission_ok accepted
  have hlater : ∀ earlier rest, Later (System.run limits earlier sys)
      (System.run limits (earlier ++ rest) sys) := by
    intro earlier rest
    have h := (sound_run accepted earlier).later positive rest
    unfold System.run at h ⊢
    rw [Relational.runAll_append]
    exact h
  -- a caller with a ticket that is not queued never entered
  have hnew : ∀ {sys : System} {ticket : Uuid} {call : Call} {notified : Bool},
      sys.calls ticket = some call → call.phase = .inspecting false notified →
      ¬ sys.Entered ticket := by
    rintro sys ticket call notified hcall hphase ⟨call', hcall', hentered⟩
    rw [hcall] at hcall'
    rw [← some.inj hcall', hphase] at hentered
    cases hentered
  refine ⟨fun event ticket hgrants => ?_,
    fun rest first second key hbefore event hgrants hwaits => ?_,
    fun hopen ticket hfirst => ?_⟩
  · obtain ⟨call, notified, hcall, -, ⟨-, hfirst⟩ | ⟨hphase, hnone⟩⟩ := grants_cases hgrants
    · exact .inl (eligibleTicket_eq_some.mp hfirst)
    · refine .inr ⟨eligibleTicket_eq_none.mp hnone, ?_⟩
      rintro earlier rest rfl hmem
      obtain ⟨entry, hentry, rfl⟩ := mem_map.mp hmem
      exact hnew hcall hphase ((hlater earlier rest).entered _
        ((sound_run accepted earlier).entered_of_mem hentry))
  · have hsound := sound_run accepted events
    have hsound' := sound_run accepted (events ++ rest)
    have hkeeps := hlater events rest
    have hsecond : (second, key) ∈ (System.run limits events sys).state.queue :=
      hbefore.subset (by simp)
    have hentered := hsound.entered_of_mem hsecond
    obtain ⟨call, notified, hcall, heligible, ⟨hphase, hgranted⟩ | ⟨hphase, -⟩⟩ :=
      grants_cases hgrants
    · have hqueued : call.queued = true := by rw [Call.queued, hphase]; rfl
      have hmem := hsound'.mem_queue hcall hqueued
      have hkey : call.key = key := by
        have hold := hkeeps.leaves _ hmem hentered
        exact (Prod.mk.inj (inj_on_of_nodup_map hsound.tickets hold hsecond rfl)).2
      rw [hkey] at hmem heligible
      obtain ⟨key', front, back, hqueue, -, hfront⟩ := eligibleTicket_eq_some.mp hgranted
      have hbefore' := hkeeps.order _ _ hbefore hwaits hmem
      have hsame : key' = key := by
        have hhere : (second, key') ∈ (System.run limits (events ++ rest) sys).state.queue := by
          rw [hqueue]
          simp
        exact (Prod.mk.inj (inj_on_of_nodup_map hsound'.tickets hhere hmem rfl)).2
      subst hsame
      have hnodup := hsound'.tickets.of_map
      rw [hqueue] at hbefore' hnodup
      have hblocked := hfront _ (mem_front_of_before hnodup hbefore')
      rw [heligible] at hblocked
      cases hblocked
    · exact hnew hcall hphase (hkeeps.entered _ hentered)
  · have hsound := sound_run accepted events
    obtain ⟨key, front, back, hqueue, -, -⟩ := eligibleTicket_eq_some.mp hfirst
    obtain ⟨call, hcall, -, -⟩ := (hsound.queue ticket key).mp (by rw [hqueue]; simp)
    refine ⟨call, hcall, ?_⟩
    have htended := tended_run accepted events hopen ticket hfirst
    cases hphase : call.phase with
    | sleeping notified =>
      cases notified with
      | true => exact .inl rfl
      | false => exact .inr (.inr (htended ⟨call, hcall, by rw [hphase]; rfl⟩))
    | _ => exact .inr (.inl fun notified h => by cases h)

/-- One caller has the slot and another waits; the slot is given back, but nobody was notified
yet. -/
def releasedSlot : List Event :=
  [.acquire 1 7, .move .register 1, .inspect 1 false, .notify 1, .acquire 2 7, .move .register 2,
    .inspect 2 false, .move .dropPermit 1, .dropLease 1]

theorem admission_order_and_wakeup_released :
    (System.run tightLimits releasedSlot {}).state.eligibleTicket tightLimits = some 2 ∧
      ∃ call, (System.run tightLimits releasedSlot {}).calls 2 = some call ∧
        (call.phase = .sleeping true ∨ (∀ notified, call.phase ≠ .sleeping notified) ∨
          (System.run tightLimits releasedSlot {}).Owed) :=
  ⟨by decide, (admission_order_and_wakeup tightLimits {} rfl releasedSlot).2.2 (by decide) 2
    (by decide)⟩

end KeyCompute.Admission
