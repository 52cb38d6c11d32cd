import KeyCompute.Admission.Calls

/-!
# What a step of bounded admission can do

`Effect` lists the effects a step can have on the system; `step_effect` says that there are no
others.  Most steps are **quiet**: they change neither the counts nor the queue, and no call by them
takes or gives back a slot or a place in the queue.
-/

namespace KeyCompute.Admission

open Phase Admission.System

/-- What the counts depend on: the key of a call, whether it has a slot, and whether it is
queued. -/
def Call.place (call : Call) : Uuid × Bool × Bool := (call.key, call.phase.live, call.phase.queued)

def SamePlaces (calls calls' : Uuid → Option Call) : Prop :=
  ∀ ticket, (calls' ticket).map Call.place = (calls ticket).map Call.place

/-- The counts and the queue are the same, and what was closed stays closed. -/
structure SameCounts (state state' : State) : Prop where
  active : state'.active = state.active
  keys : state'.keys = state.keys
  queue : state'.queue = state.queue
  closed : state.closed = true → state'.closed = true

namespace System

def Owed (sys : System) : Prop :=
  0 < sys.closers ∨ ∃ ticket call, sys.calls ticket = some call ∧ call.phase.owes = true

def Asleep (sys : System) (ticket : Uuid) : Prop :=
  ∃ call, sys.calls ticket = some call ∧ call.phase.asleep = true

def Entered (sys : System) (ticket : Uuid) : Prop :=
  ∃ call, sys.calls ticket = some call ∧ call.phase.entered = true

end System

/-- What the section of `acquire` under the lock can do. -/
inductive Inspection (limits : AdmissionLimits) (state : State) (ticket key : Uuid) :
    Bool → Option (State.Verdict × State) → Prop
  | error (queued : Bool) (error : AdmissionError) :
      Inspection limits state ticket key queued (some (.error error, state))
  | grantedNew (eligible : state.eligible limits key = true)
      (first : state.eligibleTicket limits = none) :
      Inspection limits state ticket key false (some (.granted, state.grant key))
  | grantedQueued (eligible : state.eligible limits key = true)
      (first : state.eligibleTicket limits = some ticket) :
      Inspection limits state ticket key true
        ((state.dequeue ticket key).map fun state => (.granted, state.grant key))
  | rested (blocked : ¬ (state.eligible limits key = true ∧
        state.eligibleTicket limits = some ticket)) :
      Inspection limits state ticket key true (some (.wait, state))
  | enqueued (blocked : ¬ (state.eligible limits key = true ∧ state.eligibleTicket limits = none))
      (room : state.queue.length < limits.queue)
      (roomForKey : (state.countsOf key).queued < limits.queuePerKey) :
      Inspection limits state ticket key false (some (.wait, state.enqueue ticket key))

theorem inspection (limits : AdmissionLimits) (state : State) (ticket key : Uuid)
    (queued expired : Bool) :
    Inspection limits state ticket key queued
      (state.inspect limits ticket key queued expired) := by
  unfold State.inspect
  cases queued with
  | true =>
    simp only [if_true]
    split
    · exact .error true .closed
    · split
      · rename_i heligible
        split
        · exact .error true .timeout
        · exact .grantedQueued heligible.1 heligible.2
      · exact .rested ‹_›
  | false =>
    simp only [Bool.false_eq_true, if_false]
    split
    · exact .error false .closed
    · split
      · rename_i heligible
        exact .grantedNew heligible.1 heligible.2
      · rename_i hblocked
        split
        · exact .error false .full
        · rename_i hroom
          rw [not_or] at hroom
          exact .enqueued hblocked (Nat.lt_of_not_le hroom.1) (Nat.lt_of_not_le hroom.2)

inductive Effect (limits : AdmissionLimits) (sys : System) : System → Prop
  | quiet (sys' : System) (counts : SameCounts sys.state sys'.state)
      (places : SamePlaces sys.calls sys'.calls) (healthy : sys'.poisoned = sys.poisoned)
      (asleep : ∀ ticket, sys'.Asleep ticket → sys.Asleep ticket)
      (owed : sys.Owed → sys'.Owed ∨ ∀ ticket, ¬ sys'.Asleep ticket)
      (granted : ∀ ticket call, sys'.calls ticket = some call → call.phase = .granted →
        ∃ call, sys.calls ticket = some call ∧ call.phase = .granted)
      (entered : ∀ ticket, sys.Entered ticket → sys'.Entered ticket) :
      Effect limits sys sys'
  | began (ticket key : Uuid) (fresh : sys.calls ticket = none) :
      Effect limits sys
        { sys with calls := Function.update sys.calls ticket (some ⟨key, .registering false⟩) }
  | rested (ticket : Uuid) (call : Call) (notified : Bool) (found : sys.calls ticket = some call)
      (phase : call.phase = .inspecting true notified)
      (blocked : ¬ (sys.state.eligible limits call.key = true ∧
        sys.state.eligibleTicket limits = some ticket)) :
      Effect limits sys (sys.setPhase ticket call (.sleeping notified))
  | enqueued (ticket : Uuid) (call : Call) (notified : Bool) (found : sys.calls ticket = some call)
      (phase : call.phase = .inspecting false notified)
      (blocked : ¬ (sys.state.eligible limits call.key = true ∧
        sys.state.eligibleTicket limits = none))
      (room : sys.state.queue.length < limits.queue)
      (roomForKey : (sys.state.countsOf call.key).queued < limits.queuePerKey) :
      Effect limits sys
        (({ sys with state := sys.state.enqueue ticket call.key }).setPhase ticket call
          (.sleeping notified))
  | grantedNew (ticket : Uuid) (call : Call) (notified : Bool)
      (found : sys.calls ticket = some call) (phase : call.phase = .inspecting false notified)
      (eligible : sys.state.eligible limits call.key = true)
      (first : sys.state.eligibleTicket limits = none) :
      Effect limits sys
        (({ sys with state := sys.state.grant call.key }).setPhase ticket call .granted)
  | grantedQueued (ticket : Uuid) (call : Call) (notified : Bool)
      (found : sys.calls ticket = some call) (phase : call.phase = .inspecting true notified)
      (eligible : sys.state.eligible limits call.key = true)
      (first : sys.state.eligibleTicket limits = some ticket) :
      Effect limits sys (sys.unlock ticket call
        ((sys.state.dequeue ticket call.key).map fun state => (.granted, state.grant call.key)))
  | ticketDropped (ticket : Uuid) (call : Call) (error : Option AdmissionError)
      (found : sys.calls ticket = some call) (phase : call.phase = .leaving error) :
      Effect limits sys (sys.unlock ticket call
        ((sys.state.dropTicket ticket).map fun state => (.left error, state)))
  | leaseDropped (ticket : Uuid) (call : Call) (found : sys.calls ticket = some call)
      (phase : call.phase = .releasing) :
      Effect limits sys (sys.unlock ticket call
        ((sys.state.dropLease call.key).map fun state => (.left none, state)))

section Quiet

variable {limits : AdmissionLimits} {sys : System} {ticket : Uuid} {call : Call} {phase : Phase}

theorem effect_same (limits : AdmissionLimits) (sys : System) : Effect limits sys sys :=
  .quiet sys ⟨rfl, rfl, rfl, id⟩ (fun _ => rfl) rfl (fun _ h => h) (fun h => .inl h)
    (fun _ call h hgranted => ⟨call, h, hgranted⟩) fun _ h => h

theorem entered_setPhase {other : Uuid} (found : sys.calls ticket = some call)
    (entered : call.phase.entered = true → phase.entered = true) (h : sys.Entered other) :
    (sys.setPhase ticket call phase).Entered other := by
  obtain ⟨call', hcall', hentered⟩ := h
  by_cases hother : other = ticket
  · subst hother
    rw [found] at hcall'
    refine ⟨{ call with phase }, by simp, entered ?_⟩
    rw [Option.some.inj hcall']
    exact hentered
  · exact ⟨call', by simpa [hother] using hcall', hentered⟩

theorem effect_setPhase (found : sys.calls ticket = some call)
    (live : phase.live = call.phase.live) (queued : phase.queued = call.phase.queued)
    (awake : phase.asleep = false) (quits : call.phase.owes = false)
    (granted : phase ≠ .granted) (entered : call.phase.entered = true → phase.entered = true) :
    Effect limits sys (sys.setPhase ticket call phase) := by
  refine .quiet _ ⟨rfl, rfl, rfl, id⟩ (fun other => ?_) rfl (fun other h => ?_) (fun h => .inl ?_)
    (fun other call' h hgranted => ?_) fun other h => entered_setPhase found entered h
  · by_cases hother : other = ticket
    · subst hother
      simp [found, Call.place, live, queued]
    · simp [hother]
  · obtain ⟨call', hcall', hasleep⟩ := h
    by_cases hother : other = ticket
    · subst hother
      simp only [calls_setPhase, Function.update_self, Option.some.injEq] at hcall'
      subst hcall'
      simp [awake] at hasleep
    · rw [calls_setPhase, Function.update_of_ne hother] at hcall'
      exact ⟨call', hcall', hasleep⟩
  · obtain hclosers | ⟨other, call', hcall', howes⟩ := h
    · exact .inl hclosers
    · refine .inr ⟨other, call', ?_, howes⟩
      rw [calls_setPhase, Function.update_of_ne]
      · exact hcall'
      · grind
  · by_cases hother : other = ticket
    · subst hother
      simp only [calls_setPhase, Function.update_self, Option.some.injEq] at h
      subst h
      exact absurd hgranted granted
    · simp_all

theorem place_notify (call : Call) :
    Call.place { call with phase := call.phase.notify } = call.place := by
  cases hphase : call.phase <;> simp [Call.place, notify, live, queued, hphase]

theorem asleep_notify (phase : Phase) : phase.notify.asleep = false := by
  cases phase <;> rfl

theorem awake_notifyWaiters (sys : System) (ticket : Uuid) : ¬ sys.notifyWaiters.Asleep ticket := by
  rintro ⟨call, hcall, hasleep⟩
  obtain ⟨call', -, rfl⟩ := Option.map_eq_some_iff.mp hcall
  rw [asleep_notify] at hasleep
  cases hasleep

theorem granted_notify {phase : Phase} (h : phase.notify = .granted) : phase = .granted := by
  cases phase <;> first | rfl | cases h

theorem entered_notify {phase : Phase} (h : phase.entered = true) :
    phase.notify.entered = true := by
  cases phase <;> exact h

theorem effect_notifyWaiters {sys' : System} (counts : SameCounts sys.state sys'.state)
    (places : SamePlaces sys.calls sys'.calls) (healthy : sys'.poisoned = sys.poisoned)
    (granted : ∀ ticket call, sys'.calls ticket = some call → call.phase = .granted →
      ∃ call, sys.calls ticket = some call ∧ call.phase = .granted)
    (entered : ∀ ticket, sys.Entered ticket → sys'.Entered ticket) :
    Effect limits sys sys'.notifyWaiters := by
  refine .quiet _ counts (fun ticket => ?_) healthy
    (fun ticket h => absurd h (awake_notifyWaiters sys' ticket))
    (fun _ => .inr (awake_notifyWaiters sys')) (fun ticket call h hgranted => ?_)
    fun ticket h => ?_
  · rw [← places ticket]
    simp only [notifyWaiters, Option.map_map]
    exact congrArg (fun f => Option.map f (sys'.calls ticket)) (funext place_notify)
  · obtain ⟨call', hcall', rfl⟩ := Option.map_eq_some_iff.mp h
    exact granted ticket call' hcall' (granted_notify hgranted)
  · obtain ⟨call, hcall, hentered⟩ := entered ticket h
    refine ⟨{ call with phase := call.phase.notify }, ?_, entered_notify hentered⟩
    simp only [notifyWaiters, hcall, Option.map_some]

theorem Move.apply_quiet {move : Move} {phase' : Phase} (h : move.apply phase = some phase') :
    phase'.live = phase.live ∧ phase'.queued = phase.queued ∧ phase'.asleep = false ∧
      phase.owes = false ∧ phase' ≠ .granted ∧
      (phase.entered = true → phase'.entered = true) := by
  unfold Move.apply at h
  split at h <;> cases h
  all_goals simp [live, queued, asleep, owes, entered]

theorem effect_notify (found : sys.calls ticket = some call) :
    Effect limits sys (sys.stepCall limits ticket call (.notify ticket)) := by
  simp only [stepCall]
  split
  · rename_i howes
    have hplace : call.phase.afterNotify.live = call.phase.live ∧
        call.phase.afterNotify.queued = call.phase.queued ∧
        call.phase.afterNotify ≠ .granted ∧ call.phase.afterNotify.entered = true := by
      cases hphase : call.phase <;>
        simp [afterNotify, live, queued, owes, entered, hphase]
          at howes ⊢
    refine effect_notifyWaiters ⟨rfl, rfl, rfl, id⟩ (fun other => ?_) rfl
      (fun other call' h hgranted => ?_)
      fun other h => entered_setPhase found (fun _ => hplace.2.2.2) h
    · by_cases hother : other = ticket
      · subst hother
        simp [found, Call.place, hplace.1, hplace.2.1]
      · simp [hother]
    · by_cases hother : other = ticket
      · subst hother
        simp only [calls_setPhase, Function.update_self, Option.some.injEq] at h
        subst h
        exact absurd hgranted hplace.2.2.1
      · simp_all
  · exact effect_same limits sys

theorem effect_inspect (found : sys.calls ticket = some call) (expired : Bool) :
    Effect limits sys (sys.stepCall limits ticket call (.inspect ticket expired)) := by
  simp only [stepCall]
  split
  · rename_i queued notified hphase
    generalize hresult : sys.state.inspect limits ticket call.key queued expired = result
    have hinspection := inspection limits sys.state ticket call.key queued expired
    rw [hresult] at hinspection
    cases hinspection with
    | error queued error =>
      refine effect_setPhase found ?_ ?_ ?_ (by rw [hphase]; rfl) ?_ ?_ <;>
        cases queued <;>
          simp [afterInspect, hphase, live, queued, asleep, entered]
    | grantedNew eligible first =>
      exact .grantedNew ticket call notified found hphase eligible first
    | grantedQueued eligible first =>
      have heffect := Effect.grantedQueued ticket call notified found hphase eligible first
      rw [Option.map_map]
      exact heffect
    | rested blocked => exact .rested ticket call notified found hphase blocked
    | enqueued blocked room roomForKey =>
      exact .enqueued ticket call notified found hphase blocked room roomForKey
  · exact effect_same limits sys

end Quiet

theorem step_effect (limits : AdmissionLimits) (event : Event) (sys : System) :
    Effect limits sys (sys.step limits event) := by
  have hcall : ∀ ticket call, sys.calls ticket = some call →
      Effect limits sys (sys.stepCall limits ticket call event) := by
    intro ticket call found
    cases event with
    | move move _ =>
      simp only [stepCall]
      cases happly : move.apply call.phase with
      | none => exact effect_same limits sys
      | some phase =>
        obtain ⟨hlive, hqueued, hawake, hquits, hgranted, hentered⟩ := Move.apply_quiet happly
        exact effect_setPhase found hlive hqueued hawake hquits hgranted hentered
    | inspect _ expired => exact effect_inspect found expired
    | dropTicket _ =>
      simp only [stepCall]
      split
      · exact .ticketDropped ticket call _ found ‹_›
      · exact effect_same limits sys
    | dropLease _ =>
      simp only [stepCall]
      split
      · exact .leaseDropped ticket call found ‹_›
      · exact effect_same limits sys
    | notify _ => exact effect_notify found
    | acquire | close | notifyClosed => exact effect_same limits sys
  cases event with
  | acquire ticket key =>
    simp only [step]
    cases hfound : sys.calls ticket with
    | some call => exact effect_same limits sys
    | none => exact .began ticket key hfound
  | close =>
    exact .quiet _ ⟨rfl, rfl, rfl, fun _ => rfl⟩ (fun _ => rfl) rfl (fun _ h => h)
      (fun _ => .inl (.inl (Nat.succ_pos _))) (fun _ call h hgranted => ⟨call, h, hgranted⟩)
      fun _ h => h
  | notifyClosed =>
    simp only [step]
    split
    · exact effect_same limits sys
    · exact effect_notifyWaiters ⟨rfl, rfl, rfl, id⟩ (fun _ => rfl) rfl
        (fun _ call h hgranted => ⟨call, h, hgranted⟩) fun _ h => h
  | move _ ticket | inspect ticket _ | dropTicket ticket | dropLease ticket | notify ticket =>
    grind [step, effect_same, Effect]

end KeyCompute.Admission
