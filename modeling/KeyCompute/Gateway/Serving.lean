import KeyCompute.Gateway.Executor

/-!
# A run serves the client once

What the client sees of a run comes from one attempt: once content is on its channel, the run
dispatches to no provider any more.  The dispatches are bounded by the slots of the plan, and a run
that reports success has seen the provider's `Done`.  A run goes on to another slot only while no
content was sent, so the invariant between the slots is small (`Serving`).
-/

namespace KeyCompute.Gateway

open List

/-- The slot of a dispatch. -/
def Effect.dispatchSlot? : Effect → Option ℕ
  | .dispatched slot _ _ => some slot
  | _ => none

/-- The slots that were dispatched to, in the order of the dispatches. -/
def dispatchSlots (trace : List Effect) : List ℕ := trace.filterMap Effect.dispatchSlot?

/-- No dispatch follows content. -/
def Orderly (codec : Codec) (trace : List Effect) : Prop :=
  trace.Pairwise fun e e' => e.sendsContent codec = true → e'.isDispatch = false

section Orderly

variable {codec : Codec} {l l' : List Effect}

theorem orderly_of_quiet (h : ∀ e ∈ l, e.sendsContent codec = false) : Orderly codec l := by
  apply pairwise_of_forall_mem_list
  intro e he e' _ hcontent
  rw [h e he] at hcontent
  cases hcontent

theorem orderly_of_no_dispatch (h : ∀ e ∈ l, e.isDispatch = false) : Orderly codec l := by
  apply pairwise_of_forall_mem_list
  intro e _ e' he' _
  exact h e' he'

/-- Effects that send no content may come before anything. -/
theorem Orderly.append_of_quiet (hquiet : ∀ e ∈ l, e.sendsContent codec = false)
    (h : Orderly codec l') : Orderly codec (l ++ l') := by
  refine pairwise_append.mpr ⟨orderly_of_quiet hquiet, h, ?_⟩
  intro e he e' _ hcontent
  rw [hquiet e he] at hcontent
  cases hcontent

/-- Effects without a dispatch may follow anything. -/
theorem Orderly.append_of_no_dispatch (h : Orderly codec l)
    (hnone : ∀ e ∈ l', e.isDispatch = false) : Orderly codec (l ++ l') := by
  refine pairwise_append.mpr ⟨h, orderly_of_no_dispatch hnone, ?_⟩
  intro e _ e' he' _
  exact hnone e' he'

theorem dispatchSlots_append : dispatchSlots (l ++ l') = dispatchSlots l ++ dispatchSlots l' :=
  filterMap_append

theorem dispatchSlots_eq_nil (h : ∀ e ∈ l, e.isDispatch = false) : dispatchSlots l = [] := by
  apply filterMap_eq_nil_iff.mpr
  intro e he
  cases e with
  | dispatched slot target includeStreamUsage => cases h _ he
  | _ => rfl

end Orderly

/-! ## The effects of one slot -/

section Slot

variable {codec : Codec} {index : ℕ} {target : ExecutionTarget} {connection : Connection}
  {body : List StreamStep} {effects : List Effect} {effect : Effect}

theorem Effect.OfStream.isDispatch (h : effect.OfStream index target body) :
    effect.isDispatch = false := by
  cases effect with
  | dispatched slot target includeStreamUsage => exact h.elim
  | _ => rfl

theorem Effect.IsDeferred.quiet (h : effect.IsDeferred) : effect.sendsContent codec = false := by
  obtain ⟨native, rfl, herror⟩ := h
  simp [Effect.sendsContent, StreamEvent.isContent, herror]

theorem Effect.Closing.quiet (h : effect.Closing index target) :
    effect.sendsContent codec = false := by
  rcases h with ⟨error, rfl⟩ | ⟨isFinal, rfl⟩ | hdeferred
  · rfl
  · rfl
  · exact hdeferred.quiet

theorem Effect.Closing.isDispatch (h : effect.Closing index target) :
    effect.isDispatch = false := by
  rcases h with ⟨error, rfl⟩ | ⟨isFinal, rfl⟩ | ⟨native, rfl, -⟩ <;> rfl

/-- An effect of a slot is of its opening, its attempt or its closing. -/
theorem SlotEffects.effect_cases (h : SlotEffects index target connection effects)
    (hmem : effect ∈ effects) :
    (∃ kind, effect = .attemptStarted index kind) ∨
      (∃ includeStreamUsage, effect = .dispatched index target includeStreamUsage) ∨
      effect = .accepted index target ∨
      (∃ status body, connection = .response status body ∧ effect.OfStream index target body) ∨
      effect.Closing index target := by
  obtain ⟨hopening, hattempt, hclosing⟩ := h
  rcases mem_append.mp hmem with hmem | hmem
  · rcases mem_append.mp hmem with hmem | hmem
    · exact .inl (hopening effect hmem)
    · exact .inr ((hattempt.effect_cases hmem).imp_right (.imp_right .inl))
  · exact .inr (.inr (.inr (.inr (hclosing effect hmem))))

/-- Content of a slot is sent as content of that slot. -/
theorem SlotEffects.source {source : Option ℕ} {event : StreamEvent}
    (h : SlotEffects index target connection effects) (hmem : .sent source event ∈ effects)
    (hcontent : event.isContent codec = true) : source = some index := by
  rcases h.effect_cases hmem with ⟨kind, heq⟩ | ⟨usage, heq⟩ | heq | ⟨status, body, -, hstream⟩ |
    hclosing
  · cases heq
  · cases heq
  · cases heq
  · exact hstream
  · have hquiet : event.isContent codec = false := hclosing.quiet
    rw [hquiet] at hcontent
    cases hcontent

/-- A slot dispatches to its own target only. -/
theorem SlotEffects.dispatched {slot : ℕ} {target' : ExecutionTarget} {includeStreamUsage : Bool}
    (h : SlotEffects index target connection effects)
    (hmem : .dispatched slot target' includeStreamUsage ∈ effects) :
    slot = index ∧ target' = target := by
  rcases h.effect_cases hmem with ⟨kind, heq⟩ | ⟨usage, heq⟩ | heq | ⟨status, body, -, hstream⟩ |
    hclosing
  · cases heq
  · cases heq
    exact ⟨rfl, rfl⟩
  · cases heq
  · exact hstream.elim
  · cases hclosing.isDispatch

theorem orderly_stream {stream : List Effect} {includeStreamUsage : Bool}
    (hstream : ∀ e ∈ stream, e.isDispatch = false) :
    Orderly codec (.dispatched index target includeStreamUsage :: stream) ∧
      dispatchSlots (.dispatched index target includeStreamUsage :: stream) = [index] := by
  constructor
  · apply Orderly.append_of_quiet (l := [_]) _ (orderly_of_no_dispatch hstream)
    intro e he
    rw [mem_singleton.mp he]
    rfl
  · show index :: dispatchSlots stream = [index]
    rw [dispatchSlots_eq_nil hstream]

theorem Attempted.orderly (h : Attempted index target connection effects) :
    Orderly codec effects ∧ (dispatchSlots effects).Sublist [index] := by
  cases h with
  | nothing => exact ⟨.nil, nil_sublist _⟩
  | called includeStreamUsage =>
    exact ⟨pairwise_singleton _ _, Sublist.refl _⟩
  | @accepted includeStreamUsage status body stream hresponse hstatus hstream =>
    have hnone : ∀ e ∈ Effect.accepted index target :: stream, e.isDispatch = false :=
      forall_mem_cons.mpr ⟨rfl, fun e he => (hstream e he).isDispatch⟩
    obtain ⟨horderly, hslots⟩ := orderly_stream hnone
    exact ⟨horderly, hslots ▸ Sublist.refl _⟩
  | rejected includeStreamUsage hresponse hstatus hstream =>
    obtain ⟨horderly, hslots⟩ := orderly_stream fun e he => (hstream e he).isDispatch
    exact ⟨horderly, hslots ▸ Sublist.refl _⟩

/-- A slot dispatches at most once, and not after content. -/
theorem SlotEffects.orderly (h : SlotEffects index target connection effects) :
    Orderly codec effects ∧ (dispatchSlots effects).Sublist [index] := by
  obtain ⟨hopening, hattempt, hclosing⟩ := h
  obtain ⟨horderly, hslots⟩ := hattempt.orderly
  constructor
  · apply Orderly.append_of_no_dispatch
    · refine Orderly.append_of_quiet ?_ horderly
      intro e he
      obtain ⟨kind, rfl⟩ := hopening e he
      rfl
    · exact fun e he => (hclosing e he).isDispatch
  · rw [dispatchSlots_append, dispatchSlots_append, dispatchSlots_eq_nil, nil_append,
      dispatchSlots_eq_nil fun e he => (hclosing e he).isDispatch, append_nil]
    · exact hslots
    · intro e he
      obtain ⟨kind, rfl⟩ := hopening e he
      rfl

end Slot

/-! ## The whole run -/

/-- The state before slot `index`: nothing was sent that would commit the response, and each slot
so far dispatched at most once. -/
structure Serving (codec : Codec) (targets : List PlannedTarget) (index : ℕ) (s : RunState) :
    Prop where
  quiet : ∀ e ∈ s.trace, e.sendsContent codec = false
  uncommitted : s.sentContent = false
  increasing : (dispatchSlots s.trace).Pairwise (· < ·)
  earlier : ∀ slot ∈ dispatchSlots s.trace, slot < index
  planned : ∀ slot target includeStreamUsage, .dispatched slot target includeStreamUsage ∈ s.trace →
    ∃ p, targets[slot]? = some p ∧ p.target = target

/-- What is said of a whole run, about its end and its trace. -/
structure Served (codec : Codec) (targets : List PlannedTarget) (r : RunEnd × RunState) : Prop where
  orderly : Orderly codec r.2.trace
  source : ∃ slot, ∀ source event, .sent source event ∈ r.2.trace →
    event.isContent codec = true → source = some slot
  increasing : (dispatchSlots r.2.trace).Pairwise (· < ·)
  planned : ∀ slot target includeStreamUsage,
    .dispatched slot target includeStreamUsage ∈ r.2.trace →
      ∃ p, targets[slot]? = some p ∧ p.target = target
  done : r.1 = .finished (.ok ()) → ∃ slot target, EndsDone slot target r.2.trace ∧
    ∀ slot' ∈ dispatchSlots r.2.trace, slot' ≤ slot

section Run

variable {g : GatewayExecutor} {ctx : RequestContext} {bound : Bool}
  {targets : List PlannedTarget} {env : Environment} {index : ℕ} {planned : PlannedTarget}
  {connection : Connection} {s s' : RunState} {effects : List Effect} {before : RequestUsage}

theorem Serving.mono (h : Serving g.codec targets index s) :
    Serving g.codec targets (index + 1) s :=
  ⟨h.quiet, h.uncommitted, h.increasing,
    fun slot hslot => Nat.lt_succ_of_lt (h.earlier slot hslot), h.planned⟩

/-- The dispatches up to a slot have increasing slots. -/
theorem Serving.dispatches (h : Serving g.codec targets index s)
    (hextends : Extends g.codec ctx s s' effects)
    (heffects : SlotEffects index planned.target connection effects) :
    (dispatchSlots s'.trace).Pairwise (· < ·) ∧ ∀ slot ∈ dispatchSlots s'.trace, slot ≤ index := by
  obtain ⟨-, hslots⟩ : Orderly g.codec effects ∧ _ := heffects.orderly
  have hindex : ∀ slot ∈ dispatchSlots effects, slot = index := by grind
  rw [hextends.trace, dispatchSlots_append]
  constructor
  · refine pairwise_append.mpr ⟨h.increasing, (pairwise_singleton _ _).sublist hslots, ?_⟩
    intro slot hslot slot' hslot'
    rw [hindex slot' hslot']
    exact h.earlier slot hslot
  · intro slot hslot
    rcases mem_append.mp hslot with hslot | hslot
    · exact Nat.le_of_lt (h.earlier slot hslot)
    · exact Nat.le_of_eq (hindex slot hslot)

theorem Serving.dispatched_planned (h : Serving g.codec targets index s)
    (hplanned : targets[index]? = some planned) (hextends : Extends g.codec ctx s s' effects)
    (heffects : SlotEffects index planned.target connection effects) (slot : ℕ)
    (target : ExecutionTarget) (includeStreamUsage : Bool)
    (hmem : .dispatched slot target includeStreamUsage ∈ s'.trace) :
    ∃ p, targets[slot]? = some p ∧ p.target = target := by
  rw [hextends.trace] at hmem
  rcases mem_append.mp hmem with hbefore | hmem
  · exact h.planned slot target includeStreamUsage hbefore
  · obtain ⟨rfl, rfl⟩ := heffects.dispatched hmem
    exact ⟨planned, hplanned, rfl⟩

/-- A run that goes on to the next slot has sent no content. -/
theorem Serving.passed (h : Serving g.codec targets index s)
    (hplanned : targets[index]? = some planned)
    (hpassed : g.Passed ctx targets index planned (env.slot index) s s') :
    Serving g.codec targets (index + 1) s' := by
  cases hpassed with
  | skipped | notAsked => exact h.mono
  | refused hrefused hextends heligible =>
    have htrace : s'.trace = s.trace := by rw [hextends.trace, append_nil]
    have hsent : s'.sentContent = false := by
      rw [hextends.sentContent, h.uncommitted]
      rfl
    have hnext := h.mono
    exact ⟨htrace ▸ hnext.quiet, hsent, htrace ▸ hnext.increasing, htrace ▸ hnext.earlier,
      htrace ▸ hnext.planned⟩
  | failed hextends heffects hfails houtcome hquiet hnext heligible =>
    obtain ⟨hincreasing, hslots⟩ := h.dispatches hextends heffects
    refine ⟨?_, hquiet, hincreasing, fun slot hslot => Nat.lt_succ_of_le (hslots slot hslot),
      h.dispatched_planned hplanned hextends heffects⟩
    -- the flag was still down, so none of the effects was content
    have hnone := hextends.sentContent
    rw [hquiet, h.uncommitted, Bool.false_or] at hnone
    intro e he
    rw [hextends.trace] at he
    rcases mem_append.mp he with he | he
    · exact h.quiet e he
    · exact Bool.eq_false_iff.mpr (any_eq_false.mp hnone.symm e he)

/-- The loop over the slots, by its invariant `Serving`. -/
theorem runSlots_served : Served g.codec targets
    (g.runSlots ctx bound targets env { billing := before }) := by
  refine GatewayExecutor.runSlots_rule (I := Serving g.codec targets) ?_ ?_ ?_ ?_ nofun
  · intro index planned s s' hplanned h hpassed
    exact h.passed hplanned hpassed
  · intro index planned s r s' effects hplanned h hextends heffects heligible hdone
    obtain ⟨horderly, -⟩ : Orderly g.codec effects ∧ _ := heffects.orderly
    obtain ⟨hincreasing, hslots⟩ := h.dispatches hextends heffects
    refine ⟨?_, ⟨index, ?_⟩, hincreasing, h.dispatched_planned hplanned hextends heffects, ?_⟩
    · rw [hextends.trace]
      exact horderly.append_of_quiet h.quiet
    · intro source event hmem hcontent
      rw [hextends.trace] at hmem
      rcases mem_append.mp hmem with hbefore | hmem
      · have hquiet : event.isContent g.codec = false := h.quiet _ hbefore
        rw [hquiet] at hcontent
        cases hcontent
      · exact heffects.source hmem hcontent
    · intro hok
      refine ⟨index, planned.target, ?_, hslots⟩
      rw [hextends.trace]
      exact (hdone hok).append_left _
  · intro index s s' effects error h hextends hdeferred
    have hnone : ∀ e ∈ effects, e.isDispatch = false := by
      intro e he
      obtain ⟨native, rfl, -⟩ := hdeferred e he
      rfl
    have hquiet : ∀ e ∈ s'.trace, e.sendsContent g.codec = false := by
      intro e he
      rw [hextends.trace] at he
      rcases mem_append.mp he with he | he
      · exact h.quiet e he
      · exact (hdeferred e he).quiet
    refine ⟨orderly_of_quiet hquiet, ⟨0, ?_⟩, ?_, ?_, nofun⟩
    · intro source event hmem hcontent
      have hnot : event.isContent g.codec = false := hquiet _ hmem
      rw [hnot] at hcontent
      cases hcontent
    · show (dispatchSlots s'.trace).Pairwise (· < ·)
      rw [hextends.trace, dispatchSlots_append, dispatchSlots_eq_nil hnone, append_nil]
      exact h.increasing
    · intro slot target includeStreamUsage hmem
      rw [hextends.trace] at hmem
      rcases mem_append.mp hmem with hbefore | hmem
      · exact h.planned slot target includeStreamUsage hbefore
      · cases hnone _ hmem
  · exact ⟨fun _ h => absurd h not_mem_nil, rfl, .nil, fun _ h => absurd h not_mem_nil,
      fun _ _ _ h => absurd h not_mem_nil⟩

theorem runPlan_served {plan : ExecutionPlan} : Served g.codec
    (plannedTargets g.config plan plan.primary.binding?.isSome)
    (g.runPlan ctx plan env before) := by
  unfold GatewayExecutor.runPlan
  by_cases hinvalid : GatewayExecutor.planInvalid ctx plan = true
  · rw [if_pos hinvalid]
    exact ⟨.nil, ⟨0, fun _ _ h => absurd h not_mem_nil⟩, .nil,
      fun _ _ _ h => absurd h not_mem_nil, nofun⟩
  · rw [if_neg hinvalid]
    exact runSlots_served

end Run

/-- **Gateway execution serves the client from one upstream attempt and is bounded**, for every
plan, configuration and environment: content comes from one slot and no dispatch follows it; each
entry of the plan is dispatched to at most `2 * (min maxRetries 10 + 1)` times, always with the
entry's own target; a bound plan dispatches at most once, to the account of its binding; and a run
that reports success ends with the `Done` of the attempt that was made last. -/
theorem run_serves_once (g : GatewayExecutor) (ctx : RequestContext) (plan : ExecutionPlan)
    (env : Environment) (before : RequestUsage) :
    let r := g.runPlan ctx plan env before
    let bound := plan.primary.binding?.isSome
    (∃ slot, ∀ source event, .sent source event ∈ r.2.trace →
        event.isContent g.codec = true → source = some slot) ∧
      r.2.trace.Pairwise (fun e e' => e.sendsContent g.codec = true → e'.isDispatch = false) ∧
      (∀ entry, ((dispatchSlots r.2.trace).filter fun slot =>
        slotEntry g.config plan bound slot = some entry).length ≤
          2 * (min g.config.maxRetries 10 + 1)) ∧
      (∀ slot target includeStreamUsage, .dispatched slot target includeStreamUsage ∈ r.2.trace →
        ∃ entry, slotEntry g.config plan bound slot = some entry ∧
          (plan.primary :: plan.fallbackChain)[entry]? = some target) ∧
      (bound = true → (dispatchSlots r.2.trace).length ≤ 1 ∧
        ∀ slot target includeStreamUsage, .dispatched slot target includeStreamUsage ∈ r.2.trace →
          target = plan.primary) ∧
      (r.1 = .finished (.ok ()) → ∃ slot target,
        (∃ earlier, r.2.trace = earlier ++ [.received slot .done, .completed slot target]) ∧
          ∀ slot' ∈ dispatchSlots r.2.trace, slot' ≤ slot) := by
  intro r bound
  have hserved : Served g.codec (plannedTargets g.config plan bound) r := runPlan_served
  have hnodup : (dispatchSlots r.2.trace).Nodup := hserved.increasing.imp Nat.ne_of_lt
  refine ⟨hserved.source, hserved.orderly, ?_, ?_, ?_, hserved.done⟩
  · intro entry
    have hretries : retriesPerAccount g.config bound ≤ min g.config.maxRetries 10 := by
      unfold retriesPerAccount
      split <;> omega
    have hslots : _ ≤ 2 * (retriesPerAccount g.config bound + 1) :=
      length_filter_slotEntry_le g.config plan bound hnodup entry
    omega
  · intro slot target includeStreamUsage hmem
    obtain ⟨p, hp, rfl⟩ := hserved.planned slot target includeStreamUsage hmem
    have hrow := hp
    rw [← map_fst_slotTable, getElem?_map] at hrow
    obtain ⟨row, hrow, -⟩ := Option.map_eq_some_iff.mp hrow
    have hentry : slotEntry g.config plan bound slot = some row.2 := by
      rw [slotEntry, hrow]
      rfl
    exact ⟨row.2, hentry, slotEntry_target hentry hp⟩
  · intro hbound
    obtain ⟨account, haccount⟩ := ExecutionTarget.account?_of_binding? hbound
    have htargets : plannedTargets g.config plan bound = [⟨plan.primary, false⟩] := by
      rw [hbound]
      exact plannedTargets_bound g.config plan haccount
    have honly : ∀ slot target includeStreamUsage,
        .dispatched slot target includeStreamUsage ∈ r.2.trace →
          slot = 0 ∧ target = plan.primary := by
      intro slot target includeStreamUsage hmem
      obtain ⟨p, hp, rfl⟩ := hserved.planned slot target includeStreamUsage hmem
      rw [htargets] at hp
      cases slot with
      | zero =>
        cases hp
        exact ⟨rfl, rfl⟩
      | succ slot => cases hp
    constructor
    · have hsub : dispatchSlots r.2.trace ⊆ [0] := by
        intro slot hslot
        obtain ⟨effect, hmem, hslot⟩ := mem_filterMap.mp hslot
        cases effect with
        | dispatched slot' target includeStreamUsage =>
          cases hslot
          rw [(honly slot target includeStreamUsage hmem).1]
          exact mem_singleton_self 0
        | _ => cases hslot
      exact (subperm_of_subset hnodup hsub).length_le
    · grind

end KeyCompute.Gateway
