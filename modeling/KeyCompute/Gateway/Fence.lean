import KeyCompute.Gateway.Serving

/-!
# The fence around an ambiguous outcome

A failed call may still have created the resource at the provider.  `failureContinuation` says what
may follow a failure, but the choice of the next slot is made anew at every later slot, which does
not remember that an earlier failure confined the run to one account.

What holds of every run is the fence around the failures that stop it.  The confinement holds in the
runs that meet `FenceSafe`.
-/

namespace KeyCompute.Gateway

open GatewayExecutor

def Fenced (ctx : RequestContext) : Effect → Effect → Prop
  | .failed _ target (.upstreamFailure (some status) _ _ _), .dispatched _ target' _ =>
    ¬ (200 ≤ status ∧ status ≤ 299) ∧
      (500 ≤ status → ctx.hasIdempotencyKey = true ∧ target.sameProviderAccount target' = true)
  | .failed _ _ (.upstreamFailure none stableCode _ _), .dispatched .. =>
    stableCode ∉ ambiguousCodes
  | _, _ => True

instance (ctx : RequestContext) (e e' : Effect) : Decidable (Fenced ctx e e') := by
  unfold Fenced
  split <;> infer_instance

/-- The failures that confine a run to their account, or stop it. -/
def KeyComputeError.isServerFailure : KeyComputeError → Bool
  | .upstreamFailure (some status) _ _ _ => 500 ≤ status
  | _ => false

/-- A slot that is admitted and does not fail in a way that allows a fallback. -/
def KeepsAccount (g : GatewayExecutor) (ctx : RequestContext) (env : Environment) (slot : ℕ)
    (target : ExecutionTarget) : Prop :=
  ¬ g.Refuses target (env.slot slot) ∧
    ∀ error, g.upstreamOutcome ctx slot target (env.slot slot).attempt = .failed error →
      failureContinuation ctx error ≠ .retryOrFallback

/-- **The later slots of an account that answered with a server failure keep the run on it**, or
no other account follows them. -/
def FenceSafe (g : GatewayExecutor) (ctx : RequestContext) (targets : List PlannedTarget)
    (env : Environment) : Prop :=
  ctx.hasIdempotencyKey = true → ∀ i j p q error, i < j →
    targets[i]? = some p → targets[j]? = some q → p.target.sameProviderAccount q.target = true →
    g.upstreamOutcome ctx i p.target (env.slot i).attempt = .failed error →
    error.isServerFailure = true →
    (∀ k r, j < k → targets[k]? = some r → p.target.sameProviderAccount r.target = true) ∨
      KeepsAccount g ctx env j q.target

def Effect.isFailure : Effect → Bool
  | .failed .. => true
  | _ => false

section Policy

variable {ctx : RequestContext} {targets : List PlannedTarget} {index next : ℕ}
  {target target' : ExecutionTarget} {error : KeyComputeError} {pending : List Uuid}
  {includeStreamUsage : Bool} {slot slot' : ℕ}

theorem fenced_of_continuation (hnative : ctx.nativeOpenaiResponsesRequest = true)
    (hstop : failureContinuation ctx error ≠ .stop)
    (hsame : failureContinuation ctx error = .sameAccountOnly →
      target.sameProviderAccount target' = true) :
    Fenced ctx (.failed slot target error) (.dispatched slot' target' includeStreamUsage) := by
  cases error with
  | upstreamFailure status stableCode retryable summary =>
    have hauthority : KeyComputeError.isDispatchAuthorityError
        (.upstreamFailure status stableCode retryable summary) = false := rfl
    simp only [failureContinuation, hauthority, Bool.false_eq_true, if_false] at hstop hsame
    cases status with
    | none =>
      intro hambiguous
      exact hstop (if_pos hambiguous)
    | some status =>
      simp only at hstop hsame
      by_cases haccepted : 200 ≤ status ∧ status ≤ 299
      · exact absurd (if_pos haccepted) hstop
      · rw [if_neg haccepted] at hstop hsame
        refine ⟨haccepted, ?_⟩
        intro hserver
        have hboth : 500 ≤ status ∧ ctx.nativeOpenaiResponsesRequest = true := ⟨hserver, hnative⟩
        rw [if_pos hboth] at hstop hsame
        by_cases hkey : ctx.hasIdempotencyKey = true
        · exact ⟨hkey, hsame (if_pos hkey)⟩
        · exact absurd (if_neg hkey) hstop
  | _ => exact trivial

theorem isServerFailure_of_sameAccountOnly
    (h : failureContinuation ctx error = .sameAccountOnly) :
    ctx.hasIdempotencyKey = true ∧ error.isServerFailure = true := by
  unfold failureContinuation at h
  split at h
  · cases h
  · split at h
    · split at h
      · cases h
      · split at h
        · rename_i hserver
          split at h
          · rename_i hkey
            exact ⟨hkey, decide_eq_true hserver.1⟩
          · cases h
        · cases h
    · split at h <;> cases h
    · cases h

theorem nextTarget_sameAccountOnly (h : failureContinuation ctx error = .sameAccountOnly)
    (hnext : nextTarget ctx targets index target error pending = some next) :
    index < next ∧ ∃ p, targets[next]? = some p ∧ p.runnable pending = true ∧
      target.sameProviderAccount p.target = true := by
  unfold nextTarget at hnext
  rw [h] at hnext
  obtain ⟨hrunnable, hsame⟩ := Option.filter_eq_some_iff.mp hnext
  obtain ⟨hlt, p, hp, hcandidate⟩ := findAfter_eq_some hrunnable
  rw [hp, Option.any_some] at hsame
  rw [Bool.and_eq_true] at hcandidate
  exact ⟨hlt, p, hp, hcandidate.1, hsame⟩

theorem nextTarget_stop (h : failureContinuation ctx error = .stop) :
    nextTarget ctx targets index target error pending = none := by
  unfold nextTarget
  rw [h]

theorem fenced_of_no_dispatch {e e' : Effect} (h : e'.isDispatch = false) : Fenced ctx e e' := by
  cases e' with
  | dispatched slot target includeStreamUsage => cases h
  | _ =>
    unfold Fenced
    split <;> trivial

theorem fenced_of_no_failure {e e' : Effect} (h : e.isFailure = false) : Fenced ctx e e' := by
  cases e with
  | failed slot target error => cases h
  | _ => trivial

/-- The fence holds inside a slot: its dispatch comes before its failure. -/
theorem SlotEffects.fenced {connection : Connection} {effects : List Effect}
    (h : SlotEffects index target connection effects) : effects.Pairwise (Fenced ctx) := by
  obtain ⟨hopening, hattempt, hclosing⟩ := h
  rename_i opening attempt closing
  have hbefore : ∀ e ∈ opening ++ attempt, e.isFailure = false := by
    intro e he
    rcases List.mem_append.mp he with he | he
    · obtain ⟨kind, rfl⟩ := hopening e he
      rfl
    · rcases hattempt.effect_cases he with ⟨usage, rfl⟩ | rfl | ⟨status, body, -, hstream⟩
      · rfl
      · rfl
      · cases e with
        | failed slot target error => exact hstream.elim
        | _ => rfl
  refine List.pairwise_append.mpr ⟨?_, ?_, ?_⟩
  · exact List.pairwise_of_forall_mem_list fun e he e' _ => fenced_of_no_failure (hbefore e he)
  · exact List.pairwise_of_forall_mem_list fun e _ e' he' =>
      fenced_of_no_dispatch (hclosing e' he').isDispatch
  · exact fun e he e' _ => fenced_of_no_failure (hbefore e he)

end Policy

/-! ## The run stays inside the fence -/

/-- From slot `index` on, every slot that may run has the account of `target`. -/
def Confined (targets : List PlannedTarget) (index : ℕ) (progress : Progress)
    (target : ExecutionTarget) : Prop :=
  targets.length ≤ progress.nextEligibleIndex ∨
    (∃ p, index ≤ progress.nextEligibleIndex ∧ targets[progress.nextEligibleIndex]? = some p ∧
      target.sameProviderAccount p.target = true ∧
      p.runnable progress.compatibilityRetryPending = true) ∨
    ∀ k p, index ≤ k → targets[k]? = some p → target.sameProviderAccount p.target = true

section Confined

variable {targets : List PlannedTarget} {index : ℕ} {planned : PlannedTarget}
  {progress : Progress} {target : ExecutionTarget}

theorem Confined.account (h : Confined targets index progress target)
    (hplanned : targets[index]? = some planned) (heligible : progress.nextEligibleIndex ≤ index) :
    target.sameProviderAccount planned.target = true := by
  rcases h with hover | ⟨p, hindex, hp, hsame, -⟩ | hall
  · grind
  · grind [Nat.le_antisymm]
  · exact hall index planned (Nat.le_refl index) hplanned

theorem Confined.pass (h : Confined targets index progress target)
    (hplanned : targets[index]? = some planned)
    (hover : index < progress.nextEligibleIndex ∨
      planned.runnable progress.compatibilityRetryPending = false) :
    Confined targets (index + 1) progress target := by
  rcases h with hend | ⟨p, hindex, hp, hsame, hrunnable⟩ | hall
  · exact .inl hend
  · refine .inr (.inl ⟨p, ?_, hp, hsame, hrunnable⟩)
    rcases hover with hlt | hnot
    · exact hlt
    · grind [Nat.lt_of_le_of_ne]
  · exact .inr (.inr fun k p hk => hall k p (by omega))

end Confined

/-- The state before slot `index` of a run inside the fence. -/
structure Fencing (g : GatewayExecutor) (ctx : RequestContext) (targets : List PlannedTarget)
    (env : Environment) (index : ℕ) (s : RunState) : Prop where
  fenced : s.trace.Pairwise (Fenced ctx)
  failures : ∀ slot target error, .failed slot target error ∈ s.trace → slot < index ∧
    (∃ p, targets[slot]? = some p ∧ p.target = target) ∧
    g.upstreamOutcome ctx slot target (env.slot slot).attempt = .failed error
  stopped : ∀ slot target error, .failed slot target error ∈ s.trace →
    failureContinuation ctx error = .stop → targets.length ≤ s.progress.nextEligibleIndex
  confined : ∀ slot target error, .failed slot target error ∈ s.trace →
    failureContinuation ctx error = .sameAccountOnly → Confined targets index s.progress target

section Run

variable {g : GatewayExecutor} {ctx : RequestContext} {bound : Bool}
  {targets : List PlannedTarget} {env : Environment} {index : ℕ} {planned : PlannedTarget}
  {s s' : RunState} {effects : List Effect} {before : RequestUsage}

theorem Fencing.not_stopped (h : Fencing g ctx targets env index s)
    (hplanned : targets[index]? = some planned)
    (heligible : s.progress.nextEligibleIndex ≤ index) {slot : ℕ} {target : ExecutionTarget}
    {error : KeyComputeError} (hmem : .failed slot target error ∈ s.trace) :
    failureContinuation ctx error ≠ .stop := by
  intro hstop
  have hend := h.stopped slot target error hmem hstop
  have hlt := (List.getElem?_eq_some_iff.mp hplanned).1
  omega

theorem Fencing.attempt (h : Fencing g ctx targets env index s)
    (hnative : ctx.nativeOpenaiResponsesRequest = true)
    (hplanned : targets[index]? = some planned)
    (heligible : s.progress.nextEligibleIndex ≤ index) {connection : Connection}
    (hextends : Extends g.codec ctx s s' effects)
    (heffects : SlotEffects index planned.target connection effects) :
    s'.trace.Pairwise (Fenced ctx) := by
  rw [hextends.trace]
  refine List.pairwise_append.mpr ⟨h.fenced, heffects.fenced, ?_⟩
  intro e he e' he'
  cases e with
  | failed slot target error =>
    cases e' with
    | dispatched slot' target' includeStreamUsage =>
      obtain ⟨rfl, rfl⟩ := heffects.dispatched he'
      apply fenced_of_continuation hnative (h.not_stopped hplanned heligible he)
      intro hsame
      exact (h.confined slot target error he hsame).account hplanned heligible
    | _ => exact fenced_of_no_dispatch rfl
  | _ => exact fenced_of_no_failure rfl

/-- **Where the run goes after a failure**, seen from a failure that confines it. -/
theorem confined_after {target : ExecutionTarget} {error : KeyComputeError} {progress : Progress}
    (hsame : ∀ target', planned.target.sameProviderAccount target' = true →
      target.sameProviderAccount target' = true)
    (hnext : progress.nextEligibleIndex = (nextTarget ctx targets index
      planned.target error progress.compatibilityRetryPending).getD targets.length)
    (hfallback : failureContinuation ctx error = .retryOrFallback →
      ∀ k p, index < k → targets[k]? = some p → target.sameProviderAccount p.target = true) :
    Confined targets (index + 1) progress target := by
  cases hcontinuation : failureContinuation ctx error with
  | stop =>
    rw [nextTarget_stop hcontinuation] at hnext
    exact .inl (Nat.le_of_eq hnext.symm)
  | retryOrFallback => exact .inr (.inr fun k p hk => hfallback hcontinuation k p hk)
  | sameAccountOnly =>
    cases hchosen : nextTarget ctx targets index planned.target error
        progress.compatibilityRetryPending with
    | none =>
      rw [hchosen] at hnext
      exact .inl (Nat.le_of_eq hnext.symm)
    | some next =>
      rw [hchosen, Option.getD_some] at hnext
      obtain ⟨hlt, p, hp, hrunnable, haccount⟩ := nextTarget_sameAccountOnly hcontinuation hchosen
      rw [← hnext] at hlt hp
      exact .inr (.inl ⟨p, hlt, hp, hsame _ haccount, hrunnable⟩)

theorem Fencing.passed (h : Fencing g ctx targets env index s)
    (hnative : ctx.nativeOpenaiResponsesRequest = true) (hsafe : FenceSafe g ctx targets env)
    (hplanned : targets[index]? = some planned)
    (hpassed : g.Passed ctx targets index planned (env.slot index) s s') :
    Fencing g ctx targets env (index + 1) s' := by
  have hover : (index < s.progress.nextEligibleIndex ∨
      planned.runnable s.progress.compatibilityRetryPending = false) →
      Fencing g ctx targets env (index + 1) s := by
    intro hover
    refine ⟨h.fenced, ?_, h.stopped, ?_⟩
    · intro slot target error hmem
      obtain ⟨hlt, hrest⟩ := h.failures slot target error hmem
      exact ⟨Nat.lt_succ_of_lt hlt, hrest⟩
    · intro slot target error hmem hsame
      exact (h.confined slot target error hmem hsame).pass hplanned hover
  -- what the condition says of this slot, if an earlier failure confines the run
  have hcondition : ∀ slot target error, .failed slot target error ∈ s.trace →
      failureContinuation ctx error = .sameAccountOnly →
      target.sameProviderAccount planned.target = true →
      (∀ k r, index < k → targets[k]? = some r → target.sameProviderAccount r.target = true) ∨
        KeepsAccount g ctx env index planned.target := by
    intro slot target error hmem hsame haccount
    obtain ⟨hlt, ⟨p, hp, rfl⟩, houtcome⟩ := h.failures slot target error hmem
    obtain ⟨hkey, hserver⟩ := isServerFailure_of_sameAccountOnly hsame
    exact hsafe hkey slot index p planned error hlt hp hplanned haccount houtcome hserver
  cases hpassed with
  | skipped hskip => exact hover (.inl hskip)
  | notAsked hnot => exact hover (.inr hnot)
  | refused hrefused hextends heligible =>
    have htrace : s'.trace = s.trace := by rw [hextends.trace, List.append_nil]
    refine ⟨htrace ▸ h.fenced, ?_, ?_, ?_⟩
    · intro slot target error hmem
      rw [htrace] at hmem
      obtain ⟨hlt, hrest⟩ := h.failures slot target error hmem
      exact ⟨Nat.lt_succ_of_lt hlt, hrest⟩
    · intro slot target error hmem hstop
      rw [htrace] at hmem
      exact absurd hstop (h.not_stopped hplanned heligible hmem)
    · intro slot target error hmem hsame
      rw [htrace] at hmem
      have haccount := (h.confined slot target error hmem hsame).account hplanned heligible
      rcases hcondition slot target error hmem hsame haccount with hall | hnever
      · exact .inr (.inr fun k p hk => hall k p hk)
      · exact absurd hrefused hnever.1
  | @failed _ effects error hextends heffects hfails houtcome hquiet hnext heligible =>
    have hsplit : ∀ slot target error', .failed slot target error' ∈ s'.trace →
        .failed slot target error' ∈ s.trace ∨
          (slot = index ∧ target = planned.target ∧ error' = error) := by
      intro slot target error' hmem
      rw [hextends.trace] at hmem
      rcases List.mem_append.mp hmem with hmem | hmem
      · exact .inl hmem
      · exact .inr (hfails slot target error' hmem)
    refine ⟨h.attempt hnative hplanned heligible hextends heffects, ?_, ?_, ?_⟩
    · intro slot target error' hmem
      rcases hsplit slot target error' hmem with hmem | ⟨rfl, rfl, rfl⟩
      · obtain ⟨hlt, hrest⟩ := h.failures slot target error' hmem
        exact ⟨Nat.lt_succ_of_lt hlt, hrest⟩
      · exact ⟨Nat.lt_succ_self _, ⟨planned, hplanned, rfl⟩, houtcome⟩
    · intro slot target error' hmem hstop
      rcases hsplit slot target error' hmem with hmem | ⟨rfl, rfl, rfl⟩
      · exact absurd hstop (h.not_stopped hplanned heligible hmem)
      · rw [hnext, nextTarget_stop hstop]
        exact Nat.le_refl _
    · intro slot target error' hmem hsame
      rcases hsplit slot target error' hmem with hmem | ⟨rfl, rfl, rfl⟩
      · have haccount := (h.confined slot target error' hmem hsame).account hplanned heligible
        refine confined_after
          (fun _ => ExecutionTarget.sameProviderAccount_trans haccount) hnext ?_
        intro hfallback
        rcases hcondition slot target error' hmem hsame haccount with hall | hnever
        · exact hall
        · exact absurd hfallback (hnever.2 error houtcome)
      · grind [confined_after, Fencing]

theorem runSlots_fenced (hnative : ctx.nativeOpenaiResponsesRequest = true)
    (hsafe : FenceSafe g ctx targets env) :
    (g.runSlots ctx bound targets env { billing := before }).2.trace.Pairwise (Fenced ctx) := by
  refine runSlots_rule (I := Fencing g ctx targets env)
    (Q := fun r => r.2.trace.Pairwise (Fenced ctx)) ?_ ?_ ?_ ?_ nofun
  · intro index planned s s' hplanned h hpassed
    exact h.passed hnative hsafe hplanned hpassed
  · intro index planned s r s' effects hplanned h hextends heffects heligible _
    exact h.attempt hnative hplanned heligible hextends heffects
  · intro index s s' effects error h hextends hdeferred
    show s'.trace.Pairwise (Fenced ctx)
    have hnone : ∀ e ∈ effects, e.isDispatch = false := by
      intro e he
      obtain ⟨native, rfl, -⟩ := hdeferred e he
      rfl
    rw [hextends.trace]
    refine List.pairwise_append.mpr ⟨h.fenced, ?_, fun e _ e' he' =>
      fenced_of_no_dispatch (hnone e' he')⟩
    exact List.pairwise_of_forall_mem_list fun e _ e' he' => fenced_of_no_dispatch (hnone e' he')
  · have hnone : ∀ slot target error, Effect.failed slot target error ∉ ([] : List Effect) :=
      fun _ _ _ => List.not_mem_nil
    exact ⟨.nil, fun _ _ _ h => absurd h (hnone _ _ _), fun _ _ _ h => absurd h (hnone _ _ _),
      fun _ _ _ h => absurd h (hnone _ _ _)⟩

end Run

/-- **The fence around ambiguous outcomes**, for a native Responses create whose accounts are kept
after a server failure: no dispatch follows an accepted or an ambiguous failure, and after a 5xx
status only the same account is called again, and only with an idempotency key. -/
theorem run_fenced (g : GatewayExecutor) (ctx : RequestContext) (plan : ExecutionPlan)
    (env : Environment) (before : RequestUsage)
    (hnative : ctx.nativeOpenaiResponsesRequest = true)
    (hsafe : FenceSafe g ctx (plannedTargets g.config plan plan.primary.binding?.isSome) env) :
    (g.runPlan ctx plan env before).2.trace.Pairwise (Fenced ctx) := by
  unfold runPlan
  by_cases hinvalid : planInvalid ctx plan = true
  · rw [if_pos hinvalid]
    exact .nil
  · rw [if_neg hinvalid]
    exact runSlots_fenced hnative hsafe

/-! ### A run that leaves the fence -/

/-- A slot whose upstream answers `500`, with the given answer of the admission. -/
def serverFailure (admission : Admission) : SlotEnv :=
  sampleSlot admission (.failure
    { status := some 500, stableErrorCode := "upstream_http_500", retryable := true,
      sanitizedSummary := "Upstream returned HTTP 500" })

def refusedRetry : Environment where
  slot := fun slot => serverFailure (if slot = 1 then .refused else .admitted)
  deferredDelivered := true

/-- **The fence does not hold of every run**: account `1` answers `500`, its retry is refused by
the local admission, and the create is dispatched to account `2`. -/
theorem run_not_fenced :
    ¬ (admittingGateway.runPlan keyedCreate twoAccounts refusedRetry {}).2.trace.Pairwise
      (Fenced keyedCreate) := by
  decide +kernel

/-- A run in which account `1` fails twice and is admitted: the fallback is not called. -/
theorem run_fenced_serverFailures :
    keyedCreate.nativeOpenaiResponsesRequest = true ∧
      (admittingGateway.runPlan keyedCreate twoAccounts
        ⟨fun _ => serverFailure .admitted, true⟩ {}).2.trace.Pairwise (Fenced keyedCreate) := by
  refine ⟨rfl, run_fenced _ _ _ _ _ rfl ?_⟩
  intro _ i j p q error _ _ hq _ _ _
  refine .inr ⟨?_, ?_⟩
  · rintro (⟨-, -, hrefused⟩ | ⟨hcapacity, -⟩)
    · cases hrefused
    · cases hcapacity
  · have htargets : plannedTargets admittingGateway.config twoAccounts false =
        [⟨twoAccounts.primary, false⟩, ⟨twoAccounts.primary, false⟩,
          ⟨.upstreamAccount "upstream" 2 "https://two" "secret" .pool, false⟩,
          ⟨.upstreamAccount "upstream" 2 "https://two" "secret" .pool, false⟩] := by
      decide +kernel
    have hmem : q ∈ plannedTargets admittingGateway.config twoAccounts false :=
      List.mem_of_getElem? hq
    have houtcome : ∀ slot target, target = twoAccounts.primary ∨
        target = .upstreamAccount "upstream" 2 "https://two" "secret" .pool →
        admittingGateway.upstreamOutcome keyedCreate slot target (serverFailure .admitted).attempt =
          .failed (.upstreamFailure (some 500) "upstream_http_500" true
            "Upstream returned HTTP 500") := by
      rintro slot target (rfl | rfl) <;> rfl
    intro error' herror
    rw [houtcome] at herror
    · cases herror
      decide
    · grind

end KeyCompute.Gateway
