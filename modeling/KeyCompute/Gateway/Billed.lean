import KeyCompute.Gateway.Serving

/-!
# The usage a run is billed for

Every attempt of a run writes to one accumulator.  When the run ends, it belongs to the attempt
whose response was accepted last: provider and account are that attempt's, and the counts are
`billedInput` and `billedOutput` of the events it received.

A response that was not accepted must not bring usage.  The executor does not check this; it holds
of the responses the adapters build, where the stream of a non-success status is the one event of
`native_responses_error_stream`.
-/

namespace KeyCompute.Gateway

open Effect List Option

/-! ## Responses as the adapters build them -/

/-- How the adapter reads the body of a non-success response. -/
inductive ErrorBody where
  /-- Chat and Messages turn it into a failure, as does a body that cannot be read. -/
  | failed (failure : UpstreamFailure)
  /-- Responses hands it on; the client may be gone, or the attempt dropped, before it arrives. -/
  | collected (headers : List (String × String)) (body : String)
      (interrupted : Option StreamStep)

/-- What an adapter gets from its upstream. -/
inductive Wire where
  | disconnected (polled : Bool)
  | dropped (polled : Bool)
  | failure (failure : UpstreamFailure)
  /-- A status, with the events of a body that is read as a success, or the error body. -/
  | answered (status : ℕ) (success : List StreamStep) (error : ErrorBody)

/-- `native_responses_error_stream`, as the event loop sees it. -/
def nativeResponsesErrorStream (status : ℕ) (headers : List (String × String)) (body : String)
    (interrupted : Option StreamStep) : List StreamStep :=
  match interrupted with
  | some .disconnected => [.disconnected]
  | some .dropped => [.dropped]
  | _ => [.item (.native (.openAiResponsesHttpError status headers body)) true]

def ErrorBody.reply (status : ℕ) : ErrorBody → Connection
  | .failed failure => .failure failure
  | .collected headers body interrupted =>
    .response status (nativeResponsesErrorStream status headers body interrupted)

/-- **The adapters**: a status outside `200..300` never comes with the events of a success. -/
def adapterReply : Wire → Connection
  | .disconnected polled => .disconnected polled
  | .dropped polled => .dropped polled
  | .failure failure => .failure failure
  | .answered status success error =>
    if 200 ≤ status ∧ status < 300 then .response status success else error.reply status

theorem adapterReply_rejected {wire : Wire} {status : ℕ} {body : List StreamStep}
    (h : adapterReply wire = .response status body) (hstatus : ¬ (200 ≤ status ∧ status < 300))
    {event : StreamEvent} {delivered : Bool} (hmem : .item event delivered ∈ body) :
    ∃ status headers text, event = .native (.openAiResponsesHttpError status headers text) := by
  cases wire with
  | answered status' success error =>
    rw [adapterReply] at h
    split at h
    · grind
    · cases error with
      | failed failure => cases h
      | collected headers text interrupted =>
        cases h
        unfold nativeResponsesErrorStream at hmem
        split at hmem
        · cases mem_singleton.mp hmem
        · cases mem_singleton.mp hmem
        · grind
  | _ => cases h

/-! ## The accepted attempt of a trace -/

def Effect.accepted? : Effect → Option (ℕ × ExecutionTarget)
  | .accepted slot target => some (slot, target)
  | _ => none

def lastAccepted (trace : List Effect) : Option (ℕ × ExecutionTarget) :=
  trace.reverse.findSome? accepted?

def Effect.receivedBy (slot : ℕ) : Effect → Option StreamEvent
  | .received slot' event => if slot' = slot then some event else none
  | _ => none

def eventsOf (slot : ℕ) (trace : List Effect) : List StreamEvent :=
  trace.filterMap (receivedBy slot)

section Trace

variable {trace more : List Effect} {effect : Effect} {slot : ℕ} {target : ExecutionTarget}

theorem lastAccepted_append_singleton :
    lastAccepted (trace ++ [effect]) = effect.accepted?.or (lastAccepted trace) := by
  unfold lastAccepted
  rw [reverse_append, reverse_singleton, singleton_append, findSome?_cons]
  cases effect.accepted? <;> rfl

theorem lastAccepted_append (h : ∀ e ∈ more, e.accepted? = none) :
    lastAccepted (trace ++ more) = lastAccepted trace := by
  induction more generalizing trace with
  | nil => rw [append_nil]
  | cons e rest ih =>
    rw [← singleton_append, ← append_assoc,
      ih fun e' he' => h e' (mem_cons_of_mem _ he'), lastAccepted_append_singleton,
      h e mem_cons_self, none_or]

theorem lastAccepted_mem (h : lastAccepted trace = some (slot, target)) :
    .accepted slot target ∈ trace := by
  obtain ⟨e, he, haccepted⟩ := exists_of_findSome?_eq_some h
  cases e with
  | accepted slot' target' =>
    cases haccepted
    exact mem_reverse.mp he
  | _ => cases haccepted

theorem eventsOf_append :
    eventsOf slot (trace ++ more) = eventsOf slot trace ++ eventsOf slot more :=
  filterMap_append

theorem eventsOf_eq_nil (h : ∀ e ∈ trace, e.slot? ≠ some slot) : eventsOf slot trace = [] := by
  apply filterMap_eq_nil_iff.mpr
  intro e he
  cases e with
  | received slot' event =>
    have hne : slot' ≠ slot := fun heq => h _ he (congrArg some heq)
    simp [receivedBy, hne]
  | _ => rfl

end Trace

/-! ## The billing data follow the accepted attempt -/

/-- The billing data after a trace are those of the attempt that was accepted last. -/
def Billed (codec : Codec) (ctx : RequestContext) (trace : List Effect) (billing : RequestUsage) :
    Prop :=
  ∀ slot target, lastAccepted trace = some (slot, target) →
    billing.usageProviderAccount = target.providerAccount? ∧
      Reflects codec ctx.estimatedInputTokens (eventsOf slot trace) billing.usage

section Step

variable {codec : Codec} {ctx : RequestContext} {trace effects : List Effect}
  {billing : RequestUsage} {slot : ℕ} {target : ExecutionTarget} {event : StreamEvent}

theorem Billed.other {effect : Effect} (h : Billed codec ctx trace billing)
    (haccepted : effect.accepted? = none) (hreceived : ∀ slot, effect.receivedBy slot = none) :
    Billed codec ctx (trace ++ [effect]) billing := by
  intro slot target hlast
  rw [lastAccepted_append_singleton, haccepted, none_or] at hlast
  have hevents : eventsOf slot (trace ++ [effect]) = eventsOf slot trace := by
    rw [eventsOf_append]
    simp [eventsOf, hreceived]
  rw [hevents]
  exact h slot target hlast

theorem billed_accepted (hfresh : eventsOf slot trace = []) :
    Billed codec ctx (trace ++ [.accepted slot target])
      (bill codec ctx billing (.accepted slot target)) := by
  intro slot' target' hlast
  rw [lastAccepted_append_singleton] at hlast
  cases hlast
  have hevents : eventsOf slot (trace ++ [.accepted slot target]) = [] := by
    rw [eventsOf_append, hfresh]
    rfl
  rw [hevents]
  exact ⟨rfl, reflects_restart⟩

theorem Billed.received (h : Billed codec ctx trace billing)
    (hlast : lastAccepted trace = some (slot, target)) :
    Billed codec ctx (trace ++ [.received slot event])
      (bill codec ctx billing (.received slot event)) := by
  intro slot' target' hlast'
  rw [lastAccepted_append_singleton] at hlast'
  have heq := some.inj (hlast'.symm.trans hlast)
  cases heq
  obtain ⟨haccount, hreflects⟩ := h slot target hlast
  have hevents :
      eventsOf slot (trace ++ [.received slot event]) = eventsOf slot trace ++ [event] := by
    rw [eventsOf_append]
    simp [eventsOf, receivedBy]
  rw [hevents]
  exact ⟨haccount, hreflects.observe⟩

theorem Billed.rejected (h : Billed codec ctx trace billing)
    (hother : ∀ slot' target', lastAccepted trace = some (slot', target') → slot' ≠ slot)
    {status : ℕ} {headers : List (String × String)} {text : String}
    (hevent : event = .native (.openAiResponsesHttpError status headers text)) :
    Billed codec ctx (trace ++ [.received slot event])
      (bill codec ctx billing (.received slot event)) := by
  intro slot' target' hlast
  rw [lastAccepted_append_singleton] at hlast
  have hlast : lastAccepted trace = some (slot', target') := hlast
  have hevents : eventsOf slot' (trace ++ [.received slot event]) = eventsOf slot' trace := by
    rw [eventsOf_append]
    simp [eventsOf, receivedBy, (hother slot' target' hlast).symm]
  have hbill : bill codec ctx billing (.received slot event) = billing := by
    rw [hevent]
    rfl
  rw [hevents, hbill]
  exact h slot' target' hlast

theorem Billed.completed (h : Billed codec ctx trace billing)
    (hlast : lastAccepted trace = some (slot, target)) :
    Billed codec ctx (trace ++ [.completed slot target])
      (bill codec ctx billing (.completed slot target)) := by
  intro slot' target' hlast'
  rw [lastAccepted_append_singleton] at hlast'
  have heq := some.inj (hlast'.symm.trans hlast)
  cases heq
  obtain ⟨-, hreflects⟩ := h slot target hlast
  have hevents : eventsOf slot (trace ++ [.completed slot target]) = eventsOf slot trace := by
    rw [eventsOf_append]
    simp [eventsOf, receivedBy]
  rw [hevents]
  exact ⟨rfl, hreflects⟩

theorem Billed.fold {P : List Effect → Prop}
    (hstep : ∀ trace billing e, e ∈ effects → P trace → Billed codec ctx trace billing →
      Billed codec ctx (trace ++ [e]) (e.bill codec ctx billing) ∧ P (trace ++ [e]))
    (h : Billed codec ctx trace billing) (hP : P trace) :
    Billed codec ctx (trace ++ effects) (effects.foldl (bill codec ctx) billing) := by
  induction effects generalizing trace billing with
  | nil => rwa [append_nil]
  | cons e rest ih =>
    obtain ⟨hbilled, hP'⟩ := hstep trace billing e mem_cons_self hP h
    rw [← singleton_append, ← append_assoc]
    exact ih (fun trace billing e' he' => hstep trace billing e' (mem_cons_of_mem e he'))
      hbilled hP'

theorem Billed.stream {body : List StreamStep} (h : Billed codec ctx trace billing)
    (hlast : lastAccepted trace = some (slot, target))
    (hstream : ∀ e ∈ effects, e.OfStream slot target body) :
    Billed codec ctx (trace ++ effects) (effects.foldl (bill codec ctx) billing) := by
  refine Billed.fold (P := fun trace => lastAccepted trace = some (slot, target)) ?_ h hlast
  intro trace billing e he hlast h
  have he := hstream e he
  rw [lastAccepted_append_singleton]
  cases e with
  | received slot' event =>
    obtain ⟨rfl, -⟩ := he
    exact ⟨h.received hlast, hlast⟩
  | sent source event => exact ⟨h.other rfl fun _ => rfl, hlast⟩
  | completed slot' target' =>
    obtain ⟨rfl, rfl, -⟩ := he
    exact ⟨h.completed hlast, hlast⟩
  | _ => exact he.elim

theorem Billed.rejectedStream {wire : Wire} {status : ℕ} {body : List StreamStep}
    (h : Billed codec ctx trace billing)
    (hother : ∀ slot' target', lastAccepted trace = some (slot', target') → slot' ≠ slot)
    (hwire : adapterReply wire = .response status body) (hstatus : ¬ (200 ≤ status ∧ status < 300))
    (hstream : ∀ e ∈ effects, e.OfStream slot target body) :
    Billed codec ctx (trace ++ effects) (effects.foldl (bill codec ctx) billing) := by
  refine Billed.fold (P := fun trace => ∀ slot' target',
    lastAccepted trace = some (slot', target') → slot' ≠ slot) ?_ h hother
  intro trace billing e he hother h
  have he := hstream e he
  rw [lastAccepted_append_singleton]
  cases e with
  | received slot' event =>
    obtain ⟨rfl, delivered, hitem⟩ := he
    obtain ⟨status', headers, text, hevent⟩ := adapterReply_rejected hwire hstatus hitem
    exact ⟨h.rejected hother hevent, hother⟩
  | sent source event => exact ⟨h.other rfl fun _ => rfl, hother⟩
  | completed slot' target' =>
    obtain ⟨-, -, delivered, hitem⟩ := he
    obtain ⟨status', headers, text, hevent⟩ := adapterReply_rejected hwire hstatus hitem
    cases hevent
  | _ => exact he.elim

theorem Billed.others (h : Billed codec ctx trace billing)
    (hother : ∀ e ∈ effects, e.accepted? = none ∧ (∀ slot, e.receivedBy slot = none) ∧
      ∀ billing, e.bill codec ctx billing = billing) :
    Billed codec ctx (trace ++ effects) (effects.foldl (bill codec ctx) billing) := by
  refine Billed.fold (P := fun _ => True) ?_ h trivial
  intro trace billing e he _ h
  obtain ⟨haccepted, hreceived, hbill⟩ := hother e he
  rw [hbill]
  exact ⟨h.other haccepted hreceived, trivial⟩

end Step

/-! ## The whole run -/

/-- Before slot `index`: the trace is of earlier slots, and billed. -/
structure Billing (g : GatewayExecutor) (ctx : RequestContext) (index : ℕ) (s : RunState) :
    Prop where
  billed : Billed g.codec ctx s.trace s.billing
  earlier : ∀ e ∈ s.trace, ∀ slot, e.slot? = some slot → slot < index

section Run

variable {g : GatewayExecutor} {ctx : RequestContext} {bound : Bool}
  {targets : List PlannedTarget} {env : Environment} {index : ℕ} {target : ExecutionTarget}
  {connection : Connection} {s s' : RunState} {effects : List Effect} {before : RequestUsage}

theorem SlotEffects.slot {effect : Effect} (h : SlotEffects index target connection effects)
    (hmem : effect ∈ effects) {slot : ℕ} (hslot : effect.slot? = some slot) : slot = index := by
  rcases h.effect_cases hmem with ⟨kind, rfl⟩ | ⟨usage, rfl⟩ | rfl | ⟨status, body, -, hstream⟩ |
    hclosing
  · exact (some.inj hslot).symm
  · exact (some.inj hslot).symm
  · exact (some.inj hslot).symm
  · cases effect with
    | received slot' event =>
      obtain ⟨rfl, -⟩ := hstream
      exact (some.inj hslot).symm
    | sent source event =>
      have hsource : source = some index := hstream
      rw [hsource] at hslot
      exact (some.inj hslot).symm
    | completed slot' target' =>
      obtain ⟨rfl, -⟩ := hstream
      exact (some.inj hslot).symm
    | _ => exact hstream.elim
  · rcases hclosing with ⟨error, rfl⟩ | ⟨isFinal, rfl⟩ | ⟨native, rfl, -⟩
    · exact (some.inj hslot).symm
    · exact (some.inj hslot).symm
    · cases hslot

theorem Effect.Closing.unbilled {codec : Codec} {e : Effect} (h : e.Closing index target) :
    e.accepted? = none ∧ (∀ slot, e.receivedBy slot = none) ∧
      ∀ billing, e.bill codec ctx billing = billing := by
  rcases h with ⟨error, rfl⟩ | ⟨isFinal, rfl⟩ | ⟨native, rfl, -⟩ <;>
    exact ⟨rfl, fun _ => rfl, fun _ => rfl⟩

theorem Billing.slot {wire : Wire} (h : Billing g ctx index s)
    (hwire : connection = adapterReply wire) (hextends : Extends g.codec ctx s s' effects)
    (heffects : SlotEffects index target connection effects) : Billing g ctx (index + 1) s' := by
  have hslots : ∀ e ∈ s'.trace, ∀ slot, e.slot? = some slot → slot < index + 1 := by
    intro e he slot hslot
    rw [hextends.trace] at he
    rcases mem_append.mp he with he | he
    · exact Nat.lt_succ_of_lt (h.earlier e he slot hslot)
    · rw [heffects.slot he hslot]
      exact Nat.lt_succ_self index
  refine ⟨?_, hslots⟩
  rw [hextends.trace, hextends.billing]
  obtain ⟨hopening, hattempt, hclosing⟩ := heffects
  rename_i opening attempt closing
  rw [← append_assoc, foldl_append]
  refine Billed.others ?_ fun e he => (hclosing e he).unbilled
  have hopened : Billed g.codec ctx (s.trace ++ opening)
      (opening.foldl (bill g.codec ctx) s.billing) := by
    refine h.billed.others ?_
    intro e he
    obtain ⟨kind, rfl⟩ := hopening e he
    exact ⟨rfl, fun _ => rfl, fun _ => rfl⟩
  rw [← append_assoc, foldl_append]
  -- before the attempt, the trace holds only earlier slots and the start of this one
  have hfresh : eventsOf index (s.trace ++ opening) = [] := by
    have hnone : eventsOf index opening = [] := by
      apply filterMap_eq_nil_iff.mpr
      intro e he
      obtain ⟨kind, rfl⟩ := hopening e he
      rfl
    rw [eventsOf_append, hnone, append_nil]
    apply eventsOf_eq_nil
    intro e he hslot
    exact absurd (h.earlier e he index hslot) (Nat.lt_irrefl index)
  have hlast : lastAccepted (s.trace ++ opening) = lastAccepted s.trace := by
    apply lastAccepted_append
    intro e he
    obtain ⟨kind, rfl⟩ := hopening e he
    rfl
  generalize opening.foldl (bill g.codec ctx) s.billing = billing at hopened
  cases hattempt with
  | nothing => rwa [append_nil]
  | called includeStreamUsage => exact hopened.other rfl fun _ => rfl
  | @accepted includeStreamUsage status body stream hresponse hstatus hstream =>
    have hdispatched : Billed g.codec ctx
        (s.trace ++ opening ++ [.dispatched index target includeStreamUsage]) billing :=
      hopened.other rfl fun _ => rfl
    have hfresh' : eventsOf index
        (s.trace ++ opening ++ [.dispatched index target includeStreamUsage]) = [] := by
      rw [eventsOf_append, hfresh]
      rfl
    have haccepted : Billed g.codec ctx
        (s.trace ++ opening ++ [.dispatched index target includeStreamUsage] ++
          [.accepted index target]) (bill g.codec ctx billing (.accepted index target)) :=
      billed_accepted hfresh'
    have hall := haccepted.stream lastAccepted_append_singleton hstream
    rw [append_assoc, append_assoc] at hall
    exact hall
  | @rejected includeStreamUsage status body stream hresponse hstatus hstream =>
    have hdispatched : Billed g.codec ctx
        (s.trace ++ opening ++ [.dispatched index target includeStreamUsage]) billing :=
      hopened.other rfl fun _ => rfl
    have hother : ∀ slot' target', lastAccepted
        (s.trace ++ opening ++ [.dispatched index target includeStreamUsage]) =
          some (slot', target') → slot' ≠ index := by
      intro slot' target' hlast'
      rw [lastAccepted_append_singleton] at hlast'
      have hmem := lastAccepted_mem (hlast.symm.trans hlast')
      exact Nat.ne_of_lt (h.earlier _ hmem slot' rfl)
    have hall := hdispatched.rejectedStream hother (hwire.symm.trans hresponse) hstatus hstream
    rw [append_assoc] at hall
    exact hall

theorem Billing.passed {planned : PlannedTarget} {wire : Wire} (h : Billing g ctx index s)
    (hwire : (env.slot index).attempt.connection = adapterReply wire)
    (hpassed : g.Passed ctx targets index planned (env.slot index) s s') :
    Billing g ctx (index + 1) s' := by
  have hstay : Billing g ctx (index + 1) s :=
    ⟨h.billed, fun e he slot hslot => Nat.lt_succ_of_lt (h.earlier e he slot hslot)⟩
  cases hpassed with
  | skipped | notAsked => exact hstay
  | refused hrefused hextends heligible =>
    have hnil : SlotEffects index planned.target (env.slot index).attempt.connection [] := .nil
    exact h.slot hwire hextends hnil
  | failed hextends heffects hfails houtcome hquiet hnext heligible =>
    exact h.slot hwire hextends heffects

theorem runSlots_billed
    (hadapters : ∀ slot, ∃ wire, (env.slot slot).attempt.connection = adapterReply wire) :
    Billed g.codec ctx (g.runSlots ctx bound targets env { billing := before }).2.trace
      (g.runSlots ctx bound targets env { billing := before }).2.billing := by
  refine GatewayExecutor.runSlots_rule (I := Billing g ctx)
    (Q := fun r => Billed g.codec ctx r.2.trace r.2.billing) ?_ ?_ ?_ ?_ nofun
  · intro index planned s s' hplanned h hpassed
    obtain ⟨wire, hwire⟩ := hadapters index
    exact h.passed hwire hpassed
  · intro index planned s r s' effects hplanned h hextends heffects heligible _
    obtain ⟨wire, hwire⟩ := hadapters index
    exact (h.slot hwire hextends heffects).billed
  · intro index s s' effects error h hextends hdeferred
    show Billed g.codec ctx s'.trace s'.billing
    rw [hextends.trace, hextends.billing]
    apply h.billed.others
    intro e he
    obtain ⟨native, rfl, -⟩ := hdeferred e he
    exact ⟨rfl, fun _ => rfl, fun _ => rfl⟩
  · refine ⟨?_, fun _ h => absurd h not_mem_nil⟩
    intro slot target hnone
    cases hnone

end Run

/-- **Billed usage belongs to the last accepted attempt.**  In every run over the adapters, where
`slot` is the last attempt that was accepted: the usage is attributed to its provider and account,
and its counts are those to be billed for the events this attempt received. -/
theorem billed_to_last_accepted (g : GatewayExecutor) (ctx : RequestContext) (plan : ExecutionPlan)
    (env : Environment) (before : RequestUsage)
    (hadapters : ∀ slot, ∃ wire, (env.slot slot).attempt.connection = adapterReply wire)
    (earlier later : List Effect) (slot : ℕ) (target : ExecutionTarget)
    (htrace : (g.runPlan ctx plan env before).2.trace =
      earlier ++ .accepted slot target :: later)
    (hlast : ∀ slot' target', .accepted slot' target' ∉ later)
    (hsum : estimatedOutput g.codec
      (eventsOf slot (g.runPlan ctx plan env before).2.trace) < 2 ^ 32) :
    (g.runPlan ctx plan env before).2.billing.usageProviderAccount = target.providerAccount? ∧
      (g.runPlan ctx plan env before).2.billing.usage.snapshot =
        (billedInput ctx.estimatedInputTokens
            (eventsOf slot (g.runPlan ctx plan env before).2.trace),
          billedOutput g.codec (eventsOf slot (g.runPlan ctx plan env before).2.trace)) := by
  have hbilled : Billed g.codec ctx (g.runPlan ctx plan env before).2.trace
      (g.runPlan ctx plan env before).2.billing := by
    unfold GatewayExecutor.runPlan
    by_cases hinvalid : GatewayExecutor.planInvalid ctx plan = true
    · rw [if_pos hinvalid]
      intro slot target hnone
      cases hnone
    · rw [if_neg hinvalid]
      exact runSlots_billed hadapters
  have haccepted : lastAccepted (g.runPlan ctx plan env before).2.trace = some (slot, target) := by
    rw [htrace, ← singleton_append, ← append_assoc, lastAccepted_append]
    · exact lastAccepted_append_singleton
    · intro e he
      cases e with
      | accepted slot' target' => exact absurd he (hlast slot' target')
      | _ => rfl
  obtain ⟨haccount, hreflects⟩ := hbilled slot target haccepted
  exact ⟨haccount, hreflects.snapshot hsum⟩

/-- Account `1` reports usage and then an error; account `2` answers without reporting any. -/
def fallbackAnswers : Environment where
  slot := fun slot => sampleSlot .admitted
    (if slot = 0 then
      adapterReply (.answered 200 [.item (.usage 7 40) true, .item (.error "overloaded") true]
        (.collected [] "" none))
    else
      adapterReply (.answered 200 [.item (.delta "four" none) true, .item .done true]
        (.collected [] "" none)))
  deferredDelivered := true

/-- The request is billed to account `2`, with the estimates of its own events. -/
theorem billed_to_last_accepted_fallbackAnswers :
    (admittingGateway.runPlan keyedCreate twoAccounts fallbackAnswers {}).2.billing.usage.snapshot =
      (3, 4) := by
  have h := billed_to_last_accepted admittingGateway keyedCreate twoAccounts fallbackAnswers {}
    (fun slot => ⟨_, (apply_ite adapterReply (slot = 0) _ _).symm⟩)
    [.dispatched 0 twoAccounts.primary true, .accepted 0 twoAccounts.primary,
      .received 0 (.usage 7 40), .received 0 (.error "overloaded"),
      .failed 0 twoAccounts.primary .providerDeclaredStreamError,
      .dispatched 2 (.upstreamAccount "upstream" 2 "https://two" "secret" .pool) true]
    [.received 2 (.delta "four" none), .sent (some 2) (.delta "four" none), .received 2 .done,
      .completed 2 (.upstreamAccount "upstream" 2 "https://two" "secret" .pool)]
    2 (.upstreamAccount "upstream" 2 "https://two" "secret" .pool) rfl (by simp) (by decide +kernel)
  exact h.2

end KeyCompute.Gateway
