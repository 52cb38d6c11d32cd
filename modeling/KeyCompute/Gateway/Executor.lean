import KeyCompute.Gateway.Attempt

/-!
# Running a plan

`run_plan` works through the slots of a plan until an attempt completes, an error ends the run or no
slot is left.  Before an attempt, a slot passes the checks that may refuse it (`refusal`); after a
failed attempt, `failTurn` picks the next slot.

What the code awaits is an oracle, one `SlotEnv` for each slot.  A run may be cancelled by the
execution timeout around it, between the attempts (`elapsed`) or inside one (`dropped`).
-/

namespace KeyCompute.Gateway

open List

open Control (Turn loop loop_rule)

inductive Admission where
  | admitted | refused | disconnected

inductive QuotaAdmission where
  | admitted
  | refused (error : KeyComputeError)
  | disconnected

/-- Everything `run_plan` awaits in one slot. -/
structure SlotEnv where
  /-- The execution timeout cancels the run before the attempt. -/
  elapsed : Bool
  backoffCancelled : Bool
  clientGone : Bool
  admission : Admission
  authority : Except KeyComputeError Unit
  quota : QuotaAdmission
  /-- The validator of the binding, or the health observer. -/
  snapshot : Except KeyComputeError Unit
  traceStarted : Bool
  attempt : AttemptEnv
  /-- The error with which the renewal of the quota lease ended. -/
  leaseError : Option KeyComputeError
  clientGoneAfter : Bool
  deferredDelivered : Bool

structure Environment where
  slot : ℕ → SlotEnv
  /-- Whether the client takes the error frame that is sent after the last slot. -/
  deferredDelivered : Bool

/-- How a run ends: with the answer of `run_plan`, or cancelled from outside. -/
inductive RunEnd where
  | finished (result : Except KeyComputeError Unit)
  | cancelled

def RunEnd.err (error : KeyComputeError) : RunEnd := .finished (.error error)

/-- `classify_attempt_kind`, with the accounts attempted from now on. -/
def classifyAttemptKind (targetIndex : ℕ) (target : ExecutionTarget)
    (attemptedAccounts : List Uuid) : AttemptKind × List Uuid :=
  match target.account? with
  | none => (.primary, attemptedAccounts)
  | some account =>
    if targetIndex = 0 then (.primary, account :: attemptedAccounts)
    else if account ∈ attemptedAccounts then (.retry, attemptedAccounts)
    else (.fallback, account :: attemptedAccounts)

namespace RunState

def withProgress (s : RunState) (progress : Progress) : RunState := { s with progress }

def jumpTo (s : RunState) (index : ℕ) : RunState :=
  s.withProgress { s.progress with nextEligibleIndex := index }

/-- Whether a slot may run; the run of a compatibility retry takes its account off the list. -/
def takeSlot (s : RunState) (planned : PlannedTarget) : Option RunState :=
  if planned.streamOptionsCompatibilityRetry then
    match planned.target.account? with
    | some account =>
      if account ∈ s.progress.compatibilityRetryPending then
        some (s.withProgress { s.progress with
          compatibilityRetryPending := s.progress.compatibilityRetryPending.filter (· ≠ account) })
      else none
    | none => none
  else some s

/-- Leave the account of a slot that was refused locally. -/
def skipAccount (s : RunState) (targets : List PlannedTarget) (index : ℕ)
    (target : ExecutionTarget) (error : KeyComputeError) : RunState :=
  s.withProgress { s.progress with
    lastError := some error
    nextEligibleIndex := nextAccountIndex targets index target }

/-- An account that does not know `stream_options` is tried again without. -/
def noteStreamOptions (s : RunState) (target : ExecutionTarget) (error : KeyComputeError) :
    RunState :=
  match target.account? with
  | some account =>
    if error.streamOptionsUnsupported then
      s.withProgress { s.progress with
        streamUsageUnsupported := account :: s.progress.streamUsageUnsupported
        compatibilityRetryPending := account :: s.progress.compatibilityRetryPending }
    else s
  | none => s

/-- `finish_attempt_trace_or_degrade`, for an attempt whose trace was started. -/
def finishAttempt (s : RunState) (started : Bool) (index : ℕ) (isFinal : Bool) : RunState :=
  if started then s.record (.attemptFinished index isFinal) else s

def publishDeferred (s : RunState) (delivered : Bool) : RunState :=
  match s.deferredNativeError with
  | some event =>
    let taken := { s with deferredNativeError := none }
    if delivered then taken.record (.sent none (.native event)) else taken
  | none => s

end RunState

namespace GatewayExecutor

variable (g : GatewayExecutor) (ctx : RequestContext) (bound : Bool)
  (targets : List PlannedTarget)

/-! ## The checks before an attempt -/

def capacityError : KeyComputeError :=
  if bound then .passthroughBinding .capacityExhausted
  else .serviceUnavailable "upstream_capacity_exhausted"

/-- The client left during the backoff of a retry, or before the slot. -/
def clientRefusal (planned : PlannedTarget) (kind : AttemptKind) (env : SlotEnv)
    (s : RunState) : Option (Turn RunState RunEnd) :=
  if env.elapsed then some (.answer .cancelled s)
  else if kind = .retry ∧ ¬ planned.streamOptionsCompatibilityRetry ∧ env.backoffCancelled then
    some (.answer (.err (.internal "client disconnected")) s)
  else if env.clientGone then some (.answer (.err (.internal "client disconnected")) s)
  else none

def admissionRefusal (index : ℕ) (target : ExecutionTarget) (env : SlotEnv) (s : RunState) :
    Option (Turn RunState RunEnd) :=
  if g.accountAdmission ∧ target.account?.isSome then
    match env.admission with
    | .admitted => none
    | .refused => some (.next (s.skipAccount targets index target (capacityError bound)))
    | .disconnected =>
      some (.answer (.err (.serviceUnavailable "client disconnected during admission")) s)
  else none

/-- The authority of the request, again after the wait for the account. -/
def authorityRefusal (env : SlotEnv) (s : RunState) : Option (Turn RunState RunEnd) :=
  match g.authorizeDispatch env.authority with
  | .error error => some (.answer (.err error) s)
  | .ok () => none

def quotaRefusal (index : ℕ) (target : ExecutionTarget) (env : SlotEnv) (s : RunState) :
    Option (Turn RunState RunEnd) :=
  if g.accountCapacity then
    match env.quota with
    | .admitted => none
    | .disconnected =>
      some (.answer
        (.err (.serviceUnavailable "client disconnected during account quota admission")) s)
    | .refused (.rateLimitExceeded _) | .refused (.permissionDenied _) =>
      some (.next (s.skipAccount targets index target (capacityError bound)))
    | .refused _ =>
      let error := if bound then .passthroughBinding .dependencyUnavailable
        else .serviceUnavailable "upstream_capacity_exhausted"
      some (.leave (s.withProgress { s.progress with lastError := some error }))
  else none

/-- The health snapshot, by the validator of the binding or the observer.  A timeout is among
the answers. -/
def snapshotRefusal (env : SlotEnv) (s : RunState) : Option (Turn RunState RunEnd) :=
  if bound ∨ ctx.accountModelHealthObserver then
    match env.snapshot with
    | .error error => some (.answer (.err error) s)
    | .ok () => none
  else none

/-- **What refuses a slot before its attempt**, in the order of the checks. -/
def refusal (index : ℕ) (planned : PlannedTarget) (kind : AttemptKind) (env : SlotEnv)
    (s : RunState) : Option (Turn RunState RunEnd) :=
  clientRefusal planned kind env s |>.or <|
    g.admissionRefusal bound targets index planned.target env s |>.or <|
    g.authorityRefusal env s |>.or <|
    g.quotaRefusal bound targets index planned.target env s |>.or <|
    snapshotRefusal ctx bound env s

/-! ## The attempt of a slot -/

def nextTarget (index : ℕ) (target : ExecutionTarget) (error : KeyComputeError)
    (pending : List Uuid) : Option ℕ :=
  let runnable := nextRunnableTargetIndex targets index target error.retryableAttempt pending
  match failureContinuation ctx error with
  | .stop => none
  | .retryOrFallback => runnable
  | .sameAccountOnly =>
    runnable.filter fun next =>
      targets[next]?.any fun planned => target.sameProviderAccount planned.target

/-- Choose the next slot and close the attempt, which is final if no other one can follow. -/
def chooseNext (index : ℕ) (target : ExecutionTarget) (clientGone started : Bool)
    (error : KeyComputeError) (s : RunState) : RunState :=
  let s := s.noteStreamOptions target error
  let next := nextTarget ctx targets index target error s.progress.compatibilityRetryPending
  let canContinue := !clientGone && !s.sentContent && next.isSome
  (s.jumpTo (next.getD targets.length)).finishAttempt started index (!canContinue)

def failTurn (index : ℕ) (target : ExecutionTarget) (env : SlotEnv) (started : Bool)
    (error : KeyComputeError) (s : RunState) : Turn RunState RunEnd :=
  let s := s.record (.failed index target error)
  if error.isPayloadCapacityError then
    .answer (.err (.serviceUnavailable "process_payload_memory_exhausted"))
      (s.finishAttempt started index true)
  else
    let s := chooseNext ctx targets index target env.clientGoneAfter started error s
    if env.clientGoneAfter then .answer (.err error) s
    else if s.sentContent then .answer (.err error) (s.publishDeferred env.deferredDelivered)
    else .next (s.withProgress { s.progress with lastError := some error })

/-- An attempt that was dropped: its lease is lost, or the whole run is cancelled. -/
def dropTurn (index : ℕ) (env : SlotEnv) (started : Bool) (s : RunState) :
    Turn RunState RunEnd :=
  if g.accountCapacity then
    let error := env.leaseError.getD (.serviceUnavailable "account quota renewal ended")
    let code := if error.isPayloadCapacityError then "process_payload_memory_exhausted"
      else "account_quota_lease_lost"
    .answer (.err (.serviceUnavailable code)) (s.finishAttempt started index true)
  else .answer .cancelled s

def attemptTurn (index : ℕ) (target : ExecutionTarget) (kind : AttemptKind) (env : SlotEnv)
    (s : RunState) : Turn RunState RunEnd :=
  let started := target.account?.isSome && env.traceStarted
  let s := if started then s.record (.attemptStarted index kind) else s
  match g.tryExecute ctx index target env.attempt s with
  | (.done, s) => .answer (.finished (.ok ())) s
  | (.dropped, s) => g.dropTurn index env started s
  | (.failed error, s) => failTurn ctx targets index target env started error s

def slotTurn (env : SlotEnv) (index : ℕ) (planned : PlannedTarget) (s : RunState) :
    Turn RunState RunEnd :=
  if index < s.progress.nextEligibleIndex then .next s
  else
    match s.takeSlot planned with
    | none => .next s
    | some s =>
      let classified := classifyAttemptKind index planned.target s.progress.attemptedAccounts
      let s := s.withProgress { s.progress with attemptedAccounts := classified.2 }
      (g.refusal ctx bound targets index planned classified.1 env s).getD
        (g.attemptTurn ctx targets index planned.target classified.1 env s)

/-! ## The run -/

def exhausted (delivered : Bool) (s : RunState) : RunEnd × RunState :=
  let s := s.publishDeferred delivered
  (.err (s.progress.lastError.getD (.routingFailed ctx.model)), s)

def runSlots (env : Environment) (s : RunState) : RunEnd × RunState :=
  loop (fun index => g.slotTurn ctx bound targets (env.slot index) index)
    (exhausted ctx env.deferredDelivered) 0 targets s

def planInvalid (plan : ExecutionPlan) : Bool :=
  match plan.primary.binding? with
  | some selection =>
    ctx.passthroughBinding ≠ some selection ∨ ¬ ctx.passthroughBindingValidator ∨
      ¬ ctx.accountModelHealthObserver ∨ ctx.passthroughBindingAccountConfigVersion = none ∨
      ¬ plan.fallbackChain.isEmpty
  | none => ctx.passthroughBinding.isSome

def runPlan (plan : ExecutionPlan) (env : Environment) (before : RequestUsage) :
    RunEnd × RunState :=
  let s : RunState := { billing := before }
  if planInvalid ctx plan then
    (.err (.serviceUnavailable "passthrough_binding_plan_invalid"), s)
  else
    let bound := plan.primary.binding?.isSome
    g.runSlots ctx bound (plannedTargets g.config plan bound) env s

end GatewayExecutor

/-! ## What a slot adds to a run -/

/-- The error frame kept back for the end of the run. -/
def Effect.IsDeferred (effect : Effect) : Prop :=
  ∃ native : NativeStreamEvent, effect = .sent none (.native native) ∧ native.isError = true

def Effect.Closing (index : ℕ) (target : ExecutionTarget) (effect : Effect) : Prop :=
  (∃ error, effect = .failed index target error) ∨
    (∃ isFinal, effect = .attemptFinished index isFinal) ∨ effect.IsDeferred

/-- **The effects of a slot**: the start of its attempt, the attempt, and what closes it. -/
inductive SlotEffects (index : ℕ) (target : ExecutionTarget) (connection : Connection) :
    List Effect → Prop
  | mk {opening attempt closing : List Effect}
      (hopening : ∀ effect ∈ opening, ∃ kind, effect = .attemptStarted index kind)
      (hattempt : Attempted index target connection attempt)
      (hclosing : ∀ effect ∈ closing, effect.Closing index target) :
      SlotEffects index target connection (opening ++ attempt ++ closing)

theorem SlotEffects.nil {index : ℕ} {target : ExecutionTarget} {connection : Connection} :
    SlotEffects index target connection [] := by
  have hnone : ∀ effect ∈ ([] : List Effect), ∃ kind, effect = .attemptStarted index kind :=
    fun _ h => absurd h not_mem_nil
  have hclosed : ∀ effect ∈ ([] : List Effect), effect.Closing index target :=
    fun _ h => absurd h not_mem_nil
  exact .mk hnone .nothing hclosed

def FailsWith (index : ℕ) (target : ExecutionTarget) (error : KeyComputeError)
    (effects : List Effect) : Prop :=
  ∀ slot target' error', .failed slot target' error' ∈ effects →
    slot = index ∧ target' = target ∧ error' = error

section Fails

variable {index : ℕ} {target : ExecutionTarget} {error : KeyComputeError}
  {effects more : List Effect}

theorem FailsWith.append (h : FailsWith index target error effects)
    (h' : FailsWith index target error more) : FailsWith index target error (effects ++ more) := by
  intro slot target' error' hmem
  rcases mem_append.mp hmem with hleft | hright
  · exact h slot target' error' hleft
  · exact h' slot target' error' hright

theorem failsWith_opening (h : ∀ effect ∈ effects, ∃ kind, effect = .attemptStarted index kind) :
    FailsWith index target error effects := by
  intro slot target' error' hmem
  obtain ⟨kind, hkind⟩ := h _ hmem
  cases hkind

theorem Attempted.failsWith {connection : Connection}
    (h : Attempted index target connection effects) : FailsWith index target error effects := by
  intro slot target' error' hmem
  rcases h.effect_cases hmem with ⟨includeStreamUsage, heq⟩ | heq | ⟨status, body, -, hstream⟩
  · cases heq
  · cases heq
  · exact hstream.elim

end Fails

/-- The error frame kept back, if any, is an error. -/
def DeferredError (s : RunState) : Prop :=
  ∀ event, s.deferredNativeError = some event → event.isError = true

theorem Extends.deferredError {codec : Codec} {ctx : RequestContext} {s s' : RunState}
    {effects : List Effect} (h : Extends codec ctx s s' effects) (hs : DeferredError s) :
    DeferredError s' := by
  intro event hevent
  rcases h.deferred event hevent with herror | hbefore
  · exact herror
  · exact hs event hbefore

section Operations

variable {codec : Codec} {ctx : RequestContext} {s s' : RunState} {index : ℕ}
  {target : ExecutionTarget}

theorem extends_withProgress (progress : Progress) :
    Extends codec ctx s (s.withProgress progress) [] :=
  ⟨(append_nil _).symm, (Bool.or_false _).symm, rfl, fun _ h => .inr h⟩

theorem extends_noteStreamOptions (error : KeyComputeError) :
    Extends codec ctx s (s.noteStreamOptions target error) [] := by
  unfold RunState.noteStreamOptions
  split
  · split
    · exact extends_withProgress _
    · exact Extends.refl _ _ _
  · exact Extends.refl _ _ _

theorem extends_finishAttempt (started : Bool) (isFinal : Bool) :
    ∃ closing, Extends codec ctx s (s.finishAttempt started index isFinal) closing ∧
      ∀ effect ∈ closing, effect.Closing index target := by
  unfold RunState.finishAttempt
  split
  · refine ⟨_, extends_record rfl fun _ => rfl, ?_⟩
    intro effect hmem
    exact .inr (.inl ⟨isFinal, mem_singleton.mp hmem⟩)
  · exact ⟨[], Extends.refl _ _ _, fun _ h => absurd h not_mem_nil⟩

theorem extends_publishDeferred (hs : DeferredError s) (delivered : Bool) :
    ∃ closing, Extends codec ctx s (s.publishDeferred delivered) closing ∧
      ∀ effect ∈ closing, effect.IsDeferred := by
  unfold RunState.publishDeferred
  split
  · rename_i event hevent
    have herror := hs event hevent
    have htaken : Extends codec ctx s { s with deferredNativeError := none } [] :=
      ⟨(append_nil _).symm, (Bool.or_false _).symm, rfl, nofun⟩
    cases delivered with
    | true =>
      refine ⟨_, htaken.trans (extends_record ?_ fun _ => rfl), ?_⟩
      · simp [Effect.sendsContent, StreamEvent.isContent, herror]
      · intro effect hmem
        rw [nil_append, mem_singleton] at hmem
        exact ⟨event, hmem, herror⟩
    | false => exact ⟨[], htaken, fun _ h => absurd h not_mem_nil⟩
  · exact ⟨[], Extends.refl _ _ _, fun _ h => absurd h not_mem_nil⟩

theorem takeSlot_eq_none {planned : PlannedTarget} (h : s.takeSlot planned = none) :
    planned.runnable s.progress.compatibilityRetryPending = false := by
  unfold RunState.takeSlot at h
  unfold PlannedTarget.runnable
  by_cases hcompat : planned.streamOptionsCompatibilityRetry = true
  · grind
  · rw [if_neg hcompat] at h
    cases h

theorem takeSlot_eq_some {planned : PlannedTarget} (h : s.takeSlot planned = some s') :
    ∃ progress, s' = s.withProgress progress := by
  unfold RunState.takeSlot at h
  split at h
  · grind
  · exact ⟨s.progress, (Option.some.inj h).symm⟩

end Operations

namespace GatewayExecutor

section Checks

variable {g : GatewayExecutor} {ctx : RequestContext} {bound : Bool}
  {targets : List PlannedTarget} {index : ℕ} {planned : PlannedTarget} {env : SlotEnv}
  {s : RunState}

/-- The account of a slot is refused locally: by its admission or its quota. -/
def Refuses (g : GatewayExecutor) (target : ExecutionTarget) (env : SlotEnv) : Prop :=
  (g.accountAdmission = true ∧ target.account?.isSome = true ∧ env.admission = .refused) ∨
    (g.accountCapacity = true ∧ ∃ text, env.quota = .refused (.rateLimitExceeded text) ∨
      env.quota = .refused (.permissionDenied text))

/-- How a refused slot ends: the run goes on with another account, leaves the loop or returns an
error, with nothing done. -/
def RefusedTurn (g : GatewayExecutor) (targets : List PlannedTarget) (index : ℕ)
    (target : ExecutionTarget) (env : SlotEnv) (s : RunState) : Turn RunState RunEnd → Prop
  | .next s' => g.Refuses target env ∧ ∃ error, s' = s.skipAccount targets index target error
  | .leave s' => ∃ progress, s' = s.withProgress progress
  | .answer r s' => s' = s ∧ r ≠ .finished (.ok ())

variable {turn : Turn RunState RunEnd} {target : ExecutionTarget}

theorem clientRefusal_spec {kind : AttemptKind} (h : clientRefusal planned kind env s = some turn) :
    RefusedTurn g targets index planned.target env s turn := by
  unfold clientRefusal at h
  split at h
  · cases h
    exact ⟨rfl, nofun⟩
  · split at h
    · cases h
      exact ⟨rfl, nofun⟩
    · split at h
      · cases h
        exact ⟨rfl, nofun⟩
      · cases h

theorem admissionRefusal_spec
    (h : g.admissionRefusal bound targets index target env s = some turn) :
    RefusedTurn g targets index target env s turn := by
  unfold admissionRefusal at h
  split at h
  · rename_i hconfigured
    cases hadmission : env.admission with
    | admitted =>
      rw [hadmission] at h
      cases h
    | refused =>
      rw [hadmission] at h
      cases h
      exact ⟨.inl ⟨hconfigured.1, hconfigured.2, hadmission⟩, _, rfl⟩
    | disconnected =>
      rw [hadmission] at h
      cases h
      exact ⟨rfl, nofun⟩
  · cases h

theorem authorityRefusal_spec (h : g.authorityRefusal env s = some turn) :
    RefusedTurn g targets index target env s turn := by
  unfold authorityRefusal at h
  split at h
  · cases h
    exact ⟨rfl, nofun⟩
  · cases h

theorem quotaRefusal_spec (h : g.quotaRefusal bound targets index target env s = some turn) :
    RefusedTurn g targets index target env s turn := by
  unfold quotaRefusal at h
  split at h
  · rename_i hconfigured
    split at h
    · cases h
    · cases h
      exact ⟨rfl, nofun⟩
    · rename_i text hquota
      cases h
      exact ⟨.inr ⟨hconfigured, text, .inl hquota⟩, _, rfl⟩
    · rename_i text hquota
      cases h
      exact ⟨.inr ⟨hconfigured, text, .inr hquota⟩, _, rfl⟩
    · cases h
      exact ⟨_, rfl⟩
  · cases h

theorem snapshotRefusal_spec (h : snapshotRefusal ctx bound env s = some turn) :
    RefusedTurn g targets index target env s turn := by
  unfold snapshotRefusal at h
  split at h
  · split at h
    · cases h
      exact ⟨rfl, nofun⟩
    · cases h
  · cases h

theorem refusal_spec {kind : AttemptKind}
    (h : g.refusal ctx bound targets index planned kind env s = some turn) :
    RefusedTurn g targets index planned.target env s turn := by
  unfold refusal at h
  simp only [Option.or_eq_some_iff] at h
  rcases h with h | ⟨-, h | ⟨-, h | ⟨-, h | ⟨-, h⟩⟩⟩⟩
  · exact clientRefusal_spec h
  · exact admissionRefusal_spec h
  · exact authorityRefusal_spec h
  · exact quotaRefusal_spec h
  · exact snapshotRefusal_spec h

end Checks

section Slot

variable {g : GatewayExecutor} {ctx : RequestContext} {bound : Bool}
  {targets : List PlannedTarget} {index : ℕ} {planned : PlannedTarget} {env : SlotEnv}
  {s s' : RunState}

/-- **How a run passes a slot** and goes on to the next one. -/
inductive Passed (g : GatewayExecutor) (ctx : RequestContext) (targets : List PlannedTarget)
    (index : ℕ) (planned : PlannedTarget) (env : SlotEnv) (s : RunState) : RunState → Prop
  /-- An earlier failure or refusal leads past it. -/
  | skipped (h : index < s.progress.nextEligibleIndex) :
      Passed g ctx targets index planned env s s
  /-- It is a compatibility retry that was not asked for. -/
  | notAsked (h : planned.runnable s.progress.compatibilityRetryPending = false) :
      Passed g ctx targets index planned env s s
  | refused {s' : RunState} (hrefused : g.Refuses planned.target env)
      (hextends : Extends g.codec ctx s s' [])
      (heligible : s.progress.nextEligibleIndex ≤ index) :
      Passed g ctx targets index planned env s s'
  | failed {s' : RunState} {effects : List Effect} {error : KeyComputeError}
      (hextends : Extends g.codec ctx s s' effects)
      (heffects : SlotEffects index planned.target env.attempt.connection effects)
      (hfails : FailsWith index planned.target error effects)
      (houtcome : g.upstreamOutcome ctx index planned.target env.attempt = .failed error)
      (hquiet : s'.sentContent = false)
      (hnext : s'.progress.nextEligibleIndex = (nextTarget ctx targets index planned.target error
        s'.progress.compatibilityRetryPending).getD targets.length)
      (heligible : s.progress.nextEligibleIndex ≤ index) :
      Passed g ctx targets index planned env s s'

def SlotSpec (g : GatewayExecutor) (ctx : RequestContext) (targets : List PlannedTarget)
    (index : ℕ) (planned : PlannedTarget) (env : SlotEnv) (s : RunState) :
    Turn RunState RunEnd → Prop
  | .next s' => Passed g ctx targets index planned env s s'
  | .leave s' => Extends g.codec ctx s s' []
  | .answer r s' => ∃ effects, Extends g.codec ctx s s' effects ∧
      SlotEffects index planned.target env.attempt.connection effects ∧
      s.progress.nextEligibleIndex ≤ index ∧
      (r = .finished (.ok ()) → EndsDone index planned.target effects)

/-- What `failTurn` guarantees: a closing after the attempt, and the choice of the next slot. -/
def FailSpec (g : GatewayExecutor) (ctx : RequestContext) (targets : List PlannedTarget)
    (index : ℕ) (target : ExecutionTarget) (error : KeyComputeError) (s : RunState) :
    Turn RunState RunEnd → Prop
  | .next s' => ∃ closing, Extends g.codec ctx s s' closing ∧
      (∀ effect ∈ closing, effect.Closing index target) ∧
      FailsWith index target error closing ∧ s'.sentContent = false ∧
      s'.progress.nextEligibleIndex = (nextTarget ctx targets index target error
        s'.progress.compatibilityRetryPending).getD targets.length
  | .leave _ => False
  | .answer r s' => r ≠ .finished (.ok ()) ∧ ∃ closing, Extends g.codec ctx s s' closing ∧
      ∀ effect ∈ closing, effect.Closing index target

theorem finishAttempt_progress {started isFinal : Bool} :
    (s.finishAttempt started index isFinal).progress = s.progress := by
  unfold RunState.finishAttempt
  split <;> rfl

variable {target : ExecutionTarget} {error : KeyComputeError}

theorem finishAttempt_failsWith {started isFinal : Bool} {closing : List Effect}
    (h : Extends g.codec ctx s (s.finishAttempt started index isFinal) closing) :
    FailsWith index target error closing := by
  have htrace := h.trace
  unfold RunState.finishAttempt at htrace
  split at htrace
  · have hclosing : closing = [.attemptFinished index isFinal] := (append_cancel_left htrace).symm
    intro slot target' error' hmem
    rw [hclosing] at hmem
    cases mem_singleton.mp hmem
  · have hclosing : closing = [] := by simpa using htrace
    intro slot target' error' hmem
    rw [hclosing] at hmem
    exact absurd hmem not_mem_nil

theorem closing_append {closing more : List Effect}
    (h : ∀ effect ∈ closing, effect.Closing index target)
    (h' : ∀ effect ∈ more, effect.Closing index target) :
    ∀ effect ∈ closing ++ more, effect.Closing index target := by
  intro effect hmem
  rcases mem_append.mp hmem with hleft | hright
  · exact h effect hleft
  · exact h' effect hright

theorem chooseNext_spec {clientGone started : Bool} (s : RunState) :
    ∃ closing, Extends g.codec ctx s
        (chooseNext ctx targets index target clientGone started error s) closing ∧
      (∀ effect ∈ closing, effect.Closing index target) ∧
      FailsWith index target error closing ∧
      (chooseNext ctx targets index target clientGone started error s).progress.nextEligibleIndex =
        (nextTarget ctx targets index target error (chooseNext ctx targets index target clientGone
          started error s).progress.compatibilityRetryPending).getD targets.length := by
  have hnoted : Extends g.codec ctx s (s.noteStreamOptions target error) [] :=
    extends_noteStreamOptions error
  set noted := s.noteStreamOptions target error
  set next := nextTarget ctx targets index target error noted.progress.compatibilityRetryPending
  obtain ⟨isFinal, heq⟩ : ∃ isFinal,
      chooseNext ctx targets index target clientGone started error s =
      (noted.jumpTo (next.getD targets.length)).finishAttempt started index isFinal := ⟨_, rfl⟩
  have hjump : Extends g.codec ctx noted (noted.jumpTo (next.getD targets.length)) [] :=
    extends_withProgress _
  obtain ⟨closing, hfinish, hclosing⟩ : ∃ closing, Extends g.codec ctx
      (noted.jumpTo (next.getD targets.length))
      ((noted.jumpTo (next.getD targets.length)).finishAttempt started index isFinal) closing ∧
        ∀ effect ∈ closing, effect.Closing index target := extends_finishAttempt _ _
  rw [heq]
  refine ⟨closing, (hnoted.trans hjump).trans hfinish, hclosing,
    finishAttempt_failsWith hfinish, ?_⟩
  rw [finishAttempt_progress]
  rfl

theorem failTurn_spec {started : Bool} (hs : DeferredError s) :
    FailSpec g ctx targets index target error s
      (failTurn ctx targets index target env started error s) := by
  have hfailed : Extends g.codec ctx s (s.record (.failed index target error))
      [.failed index target error] := extends_record rfl fun _ => rfl
  have hfails : FailsWith index target error [.failed index target error] := by
    intro slot target' error' hmem
    cases mem_singleton.mp hmem
    exact ⟨rfl, rfl, rfl⟩
  have hclosed : ∀ effect ∈ [Effect.failed index target error], effect.Closing index target := by
    intro effect hmem
    exact .inl ⟨error, mem_singleton.mp hmem⟩
  rw [failTurn]
  generalize s.record (.failed index target error) = recorded at hfailed
  by_cases hpayload : error.isPayloadCapacityError = true
  · -- an exhausted payload budget ends the run
    simp only [if_pos hpayload]
    obtain ⟨closing, hfinish, hclosing⟩ :
        ∃ closing,
          Extends g.codec ctx recorded (recorded.finishAttempt started index true) closing ∧
          ∀ effect ∈ closing, effect.Closing index target := extends_finishAttempt _ _
    exact ⟨nofun, _, hfailed.trans hfinish, closing_append hclosed hclosing⟩
  · simp only [if_neg hpayload]
    obtain ⟨closing, hchoose, hclosing, hquiet, hnext⟩ :
        ∃ closing, Extends g.codec ctx recorded (chooseNext ctx targets index target
          env.clientGoneAfter started error recorded) closing ∧ _ := chooseNext_spec recorded
    have hall := hfailed.trans hchoose
    have hallclosed := closing_append hclosed hclosing
    generalize chooseNext ctx targets index target env.clientGoneAfter started error recorded =
      chosen at hchoose hall hnext
    by_cases hgone : env.clientGoneAfter = true
    · simp only [if_pos hgone]
      exact ⟨nofun, _, hall, hallclosed⟩
    · simp only [if_neg hgone]
      by_cases hsent : chosen.sentContent = true
      · -- content is out: no other account may answer
        simp only [if_pos hsent]
        obtain ⟨last, hpublish, hlast⟩ :
            ∃ last, Extends g.codec ctx chosen (chosen.publishDeferred env.deferredDelivered) last ∧
              ∀ effect ∈ last, effect.IsDeferred :=
          extends_publishDeferred (hall.deferredError hs) _
        exact ⟨nofun, _, hall.trans hpublish, closing_append hallclosed
          fun effect hmem => .inr (.inr (hlast effect hmem))⟩
      · simp only [if_neg hsent]
        have hlast : Extends g.codec ctx chosen (chosen.withProgress { chosen.progress with
            lastError := some error }) [] := extends_withProgress _
        have hfinal := hall.trans hlast
        rw [append_nil] at hfinal
        exact ⟨_, hfinal, hallclosed, hfails.append hquiet, Bool.eq_false_iff.mpr hsent, hnext⟩

theorem attemptTurn_spec {kind : AttemptKind} {ready : RunState} (hs : DeferredError s)
    (hready : Extends g.codec ctx s ready []) (heligible : s.progress.nextEligibleIndex ≤ index) :
    SlotSpec g ctx targets index planned env s
      (g.attemptTurn ctx targets index planned.target kind env ready) := by
  rw [attemptTurn]
  set started := planned.target.account?.isSome && env.traceStarted
  obtain ⟨opening, hopen, hopening⟩ : ∃ opening, Extends g.codec ctx s
      (if started then ready.record (.attemptStarted index kind) else ready) opening ∧
      ∀ effect ∈ opening, ∃ kind, effect = .attemptStarted index kind := by
    split
    · refine ⟨_, hready.trans (extends_record rfl fun _ => rfl), ?_⟩
      intro effect hmem
      exact ⟨kind, mem_singleton.mp hmem⟩
    · exact ⟨[], hready, fun _ h => absurd h not_mem_nil⟩
  generalize (if started then ready.record (.attemptStarted index kind) else ready) = opened
    at hopen
  obtain ⟨attempt, hspec⟩ := tryExecute_spec g ctx index planned.target env.attempt opened
  have houtcome : (g.tryExecute ctx index planned.target env.attempt opened).1 = _ :=
    tryExecute_outcome _ _
  have hdeferred := hspec.extends_.deferredError (hopen.deferredError hs)
  have hrun := hopen.trans hspec.extends_
  cases hresult : g.tryExecute ctx index planned.target env.attempt opened with
  | mk outcome attempted =>
    rw [hresult] at hspec houtcome hdeferred hrun
    -- the effects of the slot, once its closing is known
    have hslot : ∀ {closing : List Effect},
        (∀ effect ∈ closing, effect.Closing index planned.target) →
        SlotEffects index planned.target env.attempt.connection (opening ++ attempt ++ closing) :=
      fun hclosing => .mk hopening hspec.attempted hclosing
    have hnone : ∀ effect ∈ ([] : List Effect), effect.Closing index planned.target :=
      fun _ h => absurd h not_mem_nil
    cases outcome with
    | done =>
      refine ⟨opening ++ attempt, hrun, ?_, heligible, fun _ => (hspec.done rfl).append_left _⟩
      have h := hslot hnone
      rwa [append_nil] at h
    | dropped =>
      obtain ⟨closing, hfinish, hclosing⟩ : ∃ closing, Extends g.codec ctx attempted
          (attempted.finishAttempt started index true) closing ∧
          ∀ effect ∈ closing, effect.Closing index planned.target := extends_finishAttempt _ _
      show SlotSpec g ctx targets index planned env s (g.dropTurn index env started attempted)
      unfold dropTurn
      split
      · exact ⟨_, hrun.trans hfinish, hslot hclosing, heligible, nofun⟩
      · refine ⟨_, hrun, ?_, heligible, nofun⟩
        have h := hslot hnone
        rwa [append_nil] at h
    | failed error =>
      have hfail : FailSpec g ctx targets index planned.target error attempted
          (failTurn ctx targets index planned.target env started error attempted) :=
        failTurn_spec hdeferred
      show SlotSpec g ctx targets index planned env s
        (failTurn ctx targets index planned.target env started error attempted)
      cases hturn : failTurn ctx targets index planned.target env started error attempted with
      | next s' =>
        rw [hturn] at hfail
        obtain ⟨closing, hextends, hclosing, hfails, hquiet, hnext⟩ := hfail
        refine .failed (hrun.trans hextends) (hslot hclosing) ?_ houtcome.symm hquiet hnext
          heligible
        exact (FailsWith.append (failsWith_opening hopening)
          hspec.attempted.failsWith).append hfails
      | leave s' =>
        rw [hturn] at hfail
        exact hfail.elim
      | answer r s' =>
        rw [hturn] at hfail
        obtain ⟨herror, closing, hextends, hclosing⟩ := hfail
        exact ⟨_, hrun.trans hextends, hslot hclosing, heligible, fun h => absurd h herror⟩

theorem slotTurn_spec (hs : DeferredError s) :
    SlotSpec g ctx targets index planned env s
      (g.slotTurn ctx bound targets env index planned s) := by
  rw [slotTurn]
  by_cases hskip : index < s.progress.nextEligibleIndex
  · rw [if_pos hskip]
    exact .skipped hskip
  · rw [if_neg hskip]
    cases htake : s.takeSlot planned with
    | none => exact .notAsked (takeSlot_eq_none htake)
    | some taken =>
      obtain ⟨progress, rfl⟩ := takeSlot_eq_some htake
      set classified := classifyAttemptKind index planned.target
        (s.withProgress progress).progress.attemptedAccounts
      set ready := (s.withProgress progress).withProgress { (s.withProgress progress).progress with
        attemptedAccounts := classified.2 }
      have hready : Extends g.codec ctx s ready [] := extends_withProgress _
      have heligible : s.progress.nextEligibleIndex ≤ index := Nat.le_of_not_lt hskip
      show SlotSpec g ctx targets index planned env s
        ((g.refusal ctx bound targets index planned classified.1 env ready).getD _)
      cases hrefusal : g.refusal ctx bound targets index planned classified.1 env ready with
      | none => exact attemptTurn_spec hs hready heligible
      | some turn =>
        have hrefused := refusal_spec hrefusal
        cases turn with
        | next s' =>
          obtain ⟨hrefuses, error, rfl⟩ := hrefused
          exact .refused hrefuses (extends_withProgress _) heligible
        | leave s' =>
          obtain ⟨progress', rfl⟩ := hrefused
          exact extends_withProgress _
        | answer r s' =>
          obtain ⟨rfl, herror⟩ := hrefused
          exact ⟨[], hready, .nil, heligible, fun h => absurd h herror⟩

end Slot

/-- **The rule of a run.**  An invariant of the state before each slot, kept by every way to pass
one, and strong enough for each end: an answer in a slot, or the end of the slots. -/
theorem runSlots_rule {g : GatewayExecutor} {ctx : RequestContext} {bound : Bool}
    {targets : List PlannedTarget} {env : Environment} {I : ℕ → RunState → Prop}
    {Q : RunEnd × RunState → Prop} {s : RunState}
    (hpassed : ∀ index planned s s', targets[index]? = some planned → I index s →
      Passed g ctx targets index planned (env.slot index) s s' → I (index + 1) s')
    (hanswer : ∀ index planned s r s' effects, targets[index]? = some planned → I index s →
      Extends g.codec ctx s s' effects →
      SlotEffects index planned.target (env.slot index).attempt.connection effects →
      s.progress.nextEligibleIndex ≤ index →
      (r = .finished (.ok ()) → EndsDone index planned.target effects) → Q (r, s'))
    (hexhausted : ∀ index s s' effects error, I index s → Extends g.codec ctx s s' effects →
      (∀ effect ∈ effects, effect.IsDeferred) → Q (.err error, s'))
    (hstart : I 0 s) (hs : DeferredError s) : Q (g.runSlots ctx bound targets env s) := by
  have hafter : ∀ index (before after : RunState), I index before →
      Extends g.codec ctx before after [] → DeferredError before →
      Q (exhausted ctx env.deferredDelivered after) := by
    intro index before after hI hextends hdeferred
    obtain ⟨closing, hpublish, hclosing⟩ : ∃ closing, Extends g.codec ctx after
        (after.publishDeferred env.deferredDelivered) closing ∧
        ∀ effect ∈ closing, effect.IsDeferred :=
      extends_publishDeferred (hextends.deferredError hdeferred) _
    exact hexhausted index before _ closing _ hI (hextends.trans hpublish) hclosing
  refine loop_rule (I := fun index s => I index s ∧ DeferredError s) ?_ ?_ ⟨hstart, hs⟩
  · intro index planned s hplanned ⟨hI, hdeferred⟩
    have hslot : SlotSpec g ctx targets index planned (env.slot index) s
        (g.slotTurn ctx bound targets (env.slot index) index planned s) := slotTurn_spec hdeferred
    cases hturn : g.slotTurn ctx bound targets (env.slot index) index planned s with
    | next s' =>
      rw [hturn] at hslot
      refine ⟨hpassed index planned s s' hplanned hI hslot, ?_⟩
      cases hslot with
      | skipped h => exact hdeferred
      | notAsked h => exact hdeferred
      | refused hrefused hextends heligible => exact hextends.deferredError hdeferred
      | failed hextends => exact hextends.deferredError hdeferred
    | leave s' =>
      rw [hturn] at hslot
      exact hafter index s s' hI hslot hdeferred
    | answer r s' =>
      rw [hturn] at hslot
      obtain ⟨effects, hextends, heffects, heligible, hdone⟩ := hslot
      exact hanswer index planned s r s' effects hplanned hI hextends heffects heligible hdone
  · grind [Extends.refl, Extends]

end GatewayExecutor

/-! ## A small configuration -/

/-- A gateway with one retry, fallback, and the local admission of accounts. -/
def admittingGateway : GatewayExecutor where
  config := { maxRetries := 1, enableFallback := true }
  codec := { fromStr := fun _ => none, estimateTokens := String.length }
  providers := ["upstream"]
  accountAdmission := true
  accountCapacity := false
  dispatchAuthorizer := false

/-- A native Responses create that forwards an idempotency key. -/
def keyedCreate : RequestContext where
  model := "model"
  estimatedInputTokens := 3
  passthroughBinding := none
  passthroughBindingValidator := false
  accountModelHealthObserver := false
  passthroughBindingAccountConfigVersion := none
  nativeOpenaiResponsesRequest := true
  nativeOpenaiResponsesHeaders := [("idempotency-key", "key")]

/-- Account `1`, and account `2` to fall back to. -/
def twoAccounts : ExecutionPlan where
  primary := .upstreamAccount "upstream" 1 "https://one" "secret" .pool
  fallbackChain := [.upstreamAccount "upstream" 2 "https://two" "secret" .pool]

/-- A slot in which nothing is in the way of the attempt but the admission. -/
def sampleSlot (admission : Admission) (connection : Connection) : SlotEnv where
  elapsed := false
  backoffCancelled := false
  clientGone := false
  admission := admission
  authority := .ok ()
  quota := .admitted
  snapshot := .ok ()
  traceStarted := false
  attempt := { authority := .ok (), connection := connection }
  leaseError := none
  clientGoneAfter := false
  deferredDelivered := true

end KeyCompute.Gateway
