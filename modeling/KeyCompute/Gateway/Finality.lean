import KeyCompute.Gateway.Fence

/-!
# The final attempt of a failed run

An attempt is closed with `is_final` when no other slot can follow it.  `chooseNext` looks for a
slot that may run, not for one that will: the slot it finds may still be refused, or be a dispatch
to a node, which has no trace of its own, and the run then ends with no final attempt.

Where every slot behind the first passes its checks, a run that fails closes exactly its last
attempt as final (`failed_run_marks_last`).
-/

namespace KeyCompute.Gateway

open RunState Effect

open Control (Turn loop_rule)

def Effect.started? : Effect → Option ℕ
  | attemptStarted slot _ => some slot
  | _ => none

def Effect.final? : Effect → Option ℕ
  | attemptFinished slot true => some slot
  | _ => none

def startedAttempts (trace : List Effect) : List ℕ := trace.filterMap started?

def finalAttempts (trace : List Effect) : List ℕ := trace.filterMap final?

/-- **Exactly the attempt started last is final.** -/
def MarksLast (trace : List Effect) : Prop :=
  finalAttempts trace = (startedAttempts trace).getLast?.toList

namespace GatewayExecutor

section Slot

variable {g : GatewayExecutor} {ctx : RequestContext} {bound : Bool}
  {targets : List PlannedTarget} {index : ℕ} {target : ExecutionTarget} {planned : PlannedTarget}
  {env : SlotEnv} {started : Bool} {error : KeyComputeError} {s s' : RunState}

/-- The slot leads to an attempt with a trace: it is one of an account, and no check refuses
it. -/
def Passable (g : GatewayExecutor) (ctx : RequestContext) (bound : Bool)
    (targets : List PlannedTarget) (env : SlotEnv) (index : ℕ) (planned : PlannedTarget) : Prop :=
  planned.target.account?.isSome = true ∧
    ∀ kind s, g.refusal ctx bound targets index planned kind env s = none

/-- What remains of the plan when a slot is passed with an attempt: a slot that may run, if the
attempt is not final, and nothing otherwise. -/
def Continues (targets : List PlannedTarget) (index : ℕ) (final : Bool) (s : RunState) : Prop :=
  if final then targets.length ≤ s.progress.nextEligibleIndex
  else index < s.progress.nextEligibleIndex ∧
    ∃ planned, targets[s.progress.nextEligibleIndex]? = some planned ∧
      planned.runnable s.progress.compatibilityRetryPending = true

/-- A turn that adds to the trace one attempt, if `started`, with nothing final before. -/
def Adds (targets : List PlannedTarget) (index : ℕ) (started : Bool) (opened : List ℕ) :
    Turn RunState RunEnd → Prop
  | .next s' => startedAttempts s'.trace = opened ∧ ∃ final, Continues targets index final s' ∧
      finalAttempts s'.trace = if started && final then [index] else []
  | .leave _ => False
  | .answer r s' => (∃ error, r = .err error) →
      startedAttempts s'.trace = opened ∧ finalAttempts s'.trace = if started then [index] else []

theorem nextTarget_eq_some {pending : List Uuid} {next : ℕ}
    (h : nextTarget ctx targets index target error pending = some next) :
    index < next ∧ ∃ planned, targets[next]? = some planned ∧ planned.runnable pending = true := by
  have hfound : nextRunnableTargetIndex targets index target error.retryableAttempt pending =
      some next := by
    unfold nextTarget at h
    dsimp only at h
    split at h
    · cases h
    · exact h
    · exact (Option.filter_eq_some_iff.mp h).1
  obtain ⟨hlt, planned, hplanned, hrunnable⟩ := findAfter_eq_some hfound
  exact ⟨hlt, planned, hplanned, (Bool.and_eq_true_iff.mp hrunnable).1⟩

theorem noteStreamOptions_frame (s : RunState) (target : ExecutionTarget)
    (error : KeyComputeError) : (s.noteStreamOptions target error).trace = s.trace ∧
    (s.noteStreamOptions target error).sentContent = s.sentContent := by
  unfold noteStreamOptions
  grind [withProgress]

theorem finalAttempts_publishDeferred (delivered : Bool) :
    startedAttempts (s.publishDeferred delivered).trace = startedAttempts s.trace ∧
      finalAttempts (s.publishDeferred delivered).trace = finalAttempts s.trace := by
  unfold publishDeferred
  split
  · cases delivered <;> simp [startedAttempts, finalAttempts, record, started?,
      final?]
  · exact ⟨rfl, rfl⟩

theorem attempts_finishAttempt (s : RunState) (started : Bool) (index : ℕ) (final : Bool) :
    startedAttempts (s.finishAttempt started index final).trace = startedAttempts s.trace ∧
      finalAttempts (s.finishAttempt started index final).trace =
        finalAttempts s.trace ++ if started && final then [index] else [] := by
  cases started <;> cases final <;> simp [finishAttempt, record,
    startedAttempts, finalAttempts, started?, final?]

theorem tryExecute_attempts (g : GatewayExecutor) (ctx : RequestContext) (index : ℕ)
    (target : ExecutionTarget) (env : AttemptEnv) (s : RunState) :
    startedAttempts (g.tryExecute ctx index target env s).2.trace = startedAttempts s.trace ∧
      finalAttempts (g.tryExecute ctx index target env s).2.trace = finalAttempts s.trace := by
  obtain ⟨effects, hspec⟩ := tryExecute_spec g ctx index target env s
  have hquiet : ∀ effect ∈ effects, effect.started? = none ∧ effect.final? = none := by
    intro effect hmem
    rcases hspec.attempted.effect_cases hmem with ⟨_, rfl⟩ | rfl | ⟨_, _, _, hstream⟩
    · exact ⟨rfl, rfl⟩
    · exact ⟨rfl, rfl⟩
    · cases effect <;> first | exact ⟨rfl, rfl⟩ | exact hstream.elim
  rw [hspec.extends_.trace]
  constructor
  · exact (List.filterMap_append ..).trans (by
      simp [startedAttempts, List.filterMap_eq_nil_iff.mpr fun e he => (hquiet e he).1])
  · exact (List.filterMap_append ..).trans (by
      simp [finalAttempts, List.filterMap_eq_nil_iff.mpr fun e he => (hquiet e he).2])

/-- The choice of the next slot: an attempt that is not final has a slot behind it. -/
theorem chooseNext_adds {clientGone : Bool} (hfinal : finalAttempts s.trace = [])
    (h : chooseNext ctx targets index target clientGone started error s = s') :
    ∃ final, startedAttempts s'.trace = startedAttempts s.trace ∧
      finalAttempts s'.trace = (if started && final then [index] else []) ∧
      s'.sentContent = s.sentContent ∧
      (clientGone = true ∨ s.sentContent = true → final = true) ∧
      (clientGone = false → s.sentContent = false → Continues targets index final s') := by
  obtain ⟨htrace, hsent⟩ := noteStreamOptions_frame s target error
  unfold chooseNext at h
  dsimp only at h
  set noted := s.noteStreamOptions target error
  set next := nextTarget ctx targets index target error noted.progress.compatibilityRetryPending
    with hnext
  set final := !(!clientGone && !noted.sentContent && next.isSome) with hdecided
  obtain ⟨hs, hf⟩ := attempts_finishAttempt (noted.jumpTo (next.getD targets.length)) started
    index final
  have hprogress : ((noted.jumpTo (next.getD targets.length)).finishAttempt started index
      final).progress = _ := finishAttempt_progress
  rw [h] at hs hf hprogress
  refine ⟨final, hs.trans (congrArg _ htrace), ?_, ?_, by grind, ?_⟩
  · rw [hf, show (noted.jumpTo (next.getD targets.length)).trace = s.trace from htrace, hfinal,
      List.nil_append]
  · rw [← h, finishAttempt]
    split <;> exact hsent
  · rintro rfl hcontent
    unfold Continues
    rw [hprogress]
    cases hcase : next with
    | none => simp [hdecided, hcase, jumpTo, withProgress]
    | some slot =>
      rw [if_neg (by simp [hdecided, hcase, hsent, hcontent])]
      exact nextTarget_eq_some (hnext.symm.trans hcase)

/-- **After a failed attempt** the run goes on with a slot that may run, or the attempt is
final. -/
theorem failTurn_adds (hfinal : finalAttempts s.trace = []) :
    Adds targets index started (startedAttempts s.trace)
      (failTurn ctx targets index target env started error s) := by
  have hfailed :
      startedAttempts (s.record (.failed index target error)).trace = startedAttempts s.trace ∧
        finalAttempts (s.record (.failed index target error)).trace = [] := by
    simp_all [record, startedAttempts, finalAttempts, started?, final?]
  unfold failTurn
  dsimp only
  split
  · intro _
    obtain ⟨hs, hf⟩ := attempts_finishAttempt (s.record (.failed index target error)) started
      index true
    simp_all
  · generalize hchosen : chooseNext ctx targets index target env.clientGoneAfter started error
      (s.record (.failed index target error)) = chosen
    obtain ⟨final, hs, hf, hsent, hstop, hnext⟩ := chooseNext_adds hfailed.2 hchosen
    split
    · intro _
      simp_all
    · split
      · intro _
        rw [(finalAttempts_publishDeferred _).1, (finalAttempts_publishDeferred _).2]
        simp_all
      · exact ⟨hs.trans hfailed.1, final, hnext (by simp_all) (by simp_all), hf⟩

theorem attemptTurn_adds {kind : AttemptKind} (hfinal : finalAttempts s.trace = []) :
    Adds targets index (target.account?.isSome && env.traceStarted)
      (startedAttempts s.trace ++
        if target.account?.isSome && env.traceStarted then [index] else [])
      (g.attemptTurn ctx targets index target kind env s) := by
  unfold attemptTurn
  dsimp only
  generalize (target.account?.isSome && env.traceStarted) = started
  generalize hopened : (if started then s.record (.attemptStarted index kind) else s) = opened
  have hopen : startedAttempts opened.trace = startedAttempts s.trace ++
      (if started then [index] else []) ∧ finalAttempts opened.trace = [] := by
    subst hopened
    cases started <;> simp_all [record, startedAttempts, finalAttempts, started?,
      final?]
  have hkept := tryExecute_attempts g ctx index target env.attempt opened
  rw [hopen.1, hopen.2] at hkept
  rcases hrun : g.tryExecute ctx index target env.attempt opened with ⟨outcome, s₁⟩
  rw [hrun] at hkept
  cases outcome with
  | done =>
    rintro ⟨error, herror⟩
    cases herror
  | dropped =>
    show Adds targets index started _ (g.dropTurn index env started s₁)
    unfold dropTurn
    by_cases hcapacity : g.accountCapacity = true
    · rw [if_pos hcapacity]
      intro _
      have hclosed := attempts_finishAttempt s₁ started index true
      simp_all
    · rw [if_neg hcapacity]
      rintro ⟨error, herror⟩
      cases herror
  | failed error => exact hkept.1 ▸ failTurn_adds hkept.2

/-- The attempts of a run before a slot: none yet, one behind which this slot or a later one
may run, or a final one with nothing behind it. -/
inductive Underway (targets : List PlannedTarget) (index : ℕ) (s : RunState) : Prop
  | idle (hstarted : startedAttempts s.trace = []) (hfinal : finalAttempts s.trace = [])
  | due (hstarted : ∃ i ∈ startedAttempts s.trace, i < index)
      (hfinal : finalAttempts s.trace = []) (hindex : index ≤ s.progress.nextEligibleIndex)
      (hplanned : ∃ planned, targets[s.progress.nextEligibleIndex]? = some planned ∧
        planned.runnable s.progress.compatibilityRetryPending = true)
  | closed (hmarks : MarksLast s.trace) (hend : targets.length ≤ s.progress.nextEligibleIndex)

def FailsMarked (r : RunEnd × RunState) : Prop := (∃ error, r.1 = .err error) → MarksLast r.2.trace

theorem Adds.ensures {turn : Turn RunState RunEnd} {after : RunState → RunEnd × RunState}
    {opened : List ℕ}
    (h : Adds targets index started (opened ++ if started then [index] else []) turn)
    (hfirst : started = true ∨ opened = []) :
    turn.Ensures after (Underway targets (index + 1)) FailsMarked := by
  cases turn with
  | next s' =>
    obtain ⟨hopened, final, hcontinues, hfinal⟩ := h
    cases started with
    | false => exact .idle (by simp_all) (by simpa using hfinal)
    | true =>
      cases final with
      | true => exact .closed (by simp_all [MarksLast]) (by simpa [Continues] using hcontinues)
      | false =>
        obtain ⟨hlater, hnext⟩ := hcontinues
        exact .due ⟨index, by simp [hopened], Nat.lt_succ_self _⟩ (by simpa using hfinal) hlater
          hnext
  | leave s' => exact h.elim
  | answer r s' =>
    intro herror
    obtain ⟨hopened, hfinal⟩ := h herror
    cases started <;> simp_all [MarksLast]

theorem slotTurn_underway (delivered : Bool) (hwritten : env.traceStarted = true)
    (hplanned : targets[index]? = some planned)
    (hpassable : (∃ i ∈ startedAttempts s.trace, i < index) →
      Passable g ctx bound targets env index planned)
    (h : Underway targets index s) :
    (g.slotTurn ctx bound targets env index planned s).Ensures (exhausted ctx delivered)
      (Underway targets (index + 1)) FailsMarked := by
  have hlength : index < targets.length := (List.getElem?_eq_some_iff.mp hplanned).1
  unfold slotTurn
  split
  · rename_i hskip
    cases h with
    | idle hstarted hfinal => exact .idle hstarted hfinal
    | due hstarted hfinal hindex hnext =>
      exact .due (hstarted.imp fun i hi => ⟨hi.1, Nat.lt_succ_of_lt hi.2⟩) hfinal hskip hnext
    | closed hmarks hend => exact .closed hmarks hend
  · rename_i hreached
    split
    · rename_i htake
      cases h with
      | idle hstarted hfinal => exact .idle hstarted hfinal
      | due hstarted hfinal hindex hnext =>
        -- the slot that was found may run
        obtain ⟨_, hfound, hrunnable⟩ := hnext
        have hnow : s.progress.nextEligibleIndex = index := by omega
        rw [hnow, hplanned] at hfound
        cases hfound
        cases hrunnable.symm.trans (takeSlot_eq_none htake)
      | closed hmarks hend => omega
    · rename_i taken htake
      obtain ⟨progress, rfl⟩ := takeSlot_eq_some htake
      dsimp only
      generalize hready : (s.withProgress progress).withProgress _ = ready
      have htrace : ready.trace = s.trace := hready ▸ rfl
      have hfresh : finalAttempts ready.trace = [] ∧ (startedAttempts ready.trace = [] ∨
          Passable g ctx bound targets env index planned) := by
        rw [htrace]
        cases h with
        | idle hstarted hfinal => exact ⟨hfinal, .inl hstarted⟩
        | due hstarted hfinal => exact ⟨hfinal, .inr (hpassable hstarted)⟩
        | closed hmarks hend => omega
      cases hrefusal : g.refusal ctx bound targets index planned _ env ready with
      | none =>
        exact (attemptTurn_adds hfresh.1).ensures
          (hfresh.2.symm.imp_left fun hp => by simp [hp.1, hwritten])
      | some turn =>
        have hidle : startedAttempts ready.trace = [] :=
          hfresh.2.resolve_right fun hp => nomatch (hp.2 _ _).symm.trans hrefusal
        have hrefused := refusal_spec hrefusal
        cases turn with
        | next s' =>
          obtain ⟨_, error, rfl⟩ := hrefused
          exact .idle hidle hfresh.1
        | leave s' =>
          obtain ⟨progress', rfl⟩ := hrefused
          intro _
          have hkept := finalAttempts_publishDeferred (s := ready.withProgress progress') delivered
          simp_all [MarksLast, exhausted, withProgress]
        | answer r s' =>
          obtain ⟨rfl, _⟩ := hrefused
          intro _
          simp [MarksLast, hidle, hfresh.1]

end Slot

theorem runSlots_marks {g : GatewayExecutor} {ctx : RequestContext} {bound : Bool}
    {targets : List PlannedTarget} {env : Environment} {s : RunState}
    (hwritten : ∀ slot, (env.slot slot).traceStarted = true) (htrace : s.trace = [])
    (hpassable : ∀ j planned, 0 < j → targets[j]? = some planned →
      Passable g ctx bound targets (env.slot j) j planned) :
    FailsMarked (g.runSlots ctx bound targets env s) := by
  refine loop_rule (I := fun index s => Underway targets index s) ?_ ?_ (.idle ?_ ?_)
  · intro index planned s hplanned hunder
    exact slotTurn_underway env.deferredDelivered (hwritten index) hplanned
      (fun ⟨_, _, hlt⟩ => hpassable index planned (Nat.zero_lt_of_lt hlt) hplanned) hunder
  · intro s hunder _
    have hkept := finalAttempts_publishDeferred (s := s) env.deferredDelivered
    have hmarks : MarksLast s.trace := by
      cases hunder with
      | idle hstarted hfinal => simp [MarksLast, hstarted, hfinal]
      | due _ _ hindex hnext =>
        obtain ⟨_, hfound, _⟩ := hnext
        exact absurd (List.getElem?_eq_some_iff.mp hfound).1 (Nat.not_lt.mpr hindex)
      | closed hmarks => exact hmarks
    simp_all [MarksLast, exhausted]
  · simp [htrace, startedAttempts]
  · simp [htrace, finalAttempts]

end GatewayExecutor

/-- **The final attempt of a failed run**, where every slot behind the first passes its checks and
is one of an account: if the attempts could be traced and the run returned an error, exactly the
attempt started last has been closed as final. -/
theorem failed_run_marks_last (g : GatewayExecutor) (ctx : RequestContext) (plan : ExecutionPlan)
    (env : Environment) (before : RequestUsage) (error : KeyComputeError)
    (hwritten : ∀ slot, (env.slot slot).traceStarted = true)
    (hpassable : ∀ j planned, 0 < j →
      (plannedTargets g.config plan plan.primary.binding?.isSome)[j]? = some planned →
      g.Passable ctx plan.primary.binding?.isSome
        (plannedTargets g.config plan plan.primary.binding?.isSome) (env.slot j) j planned)
    (hfailed : (g.runPlan ctx plan env before).1 = .err error) :
    MarksLast (g.runPlan ctx plan env before).2.trace := by
  unfold GatewayExecutor.runPlan at hfailed ⊢
  by_cases hinvalid : GatewayExecutor.planInvalid ctx plan = true
  · rw [if_pos hinvalid]
    rfl
  · rw [if_neg hinvalid] at hfailed ⊢
    exact GatewayExecutor.runSlots_marks hwritten rfl hpassable ⟨error, hfailed⟩

/-- Slots whose attempts are traced and fail with `500`, where they are admitted. -/
def tracedFailures (admission : ℕ → Admission) : Environment where
  slot := fun slot => { serverFailure (admission slot) with traceStarted := true }
  deferredDelivered := true

def allAdmitted : Environment := tracedFailures fun _ => .admitted

def refusedBehind : Environment :=
  tracedFailures fun slot => if slot = 0 then .admitted else .refused

/-- Both attempts of account `1` fail, and the second one is final. -/
theorem failed_run_marks_last_retried :
    startedAttempts (admittingGateway.runPlan keyedCreate twoAccounts allAdmitted {}).2.trace =
        [0, 1] ∧
      MarksLast (admittingGateway.runPlan keyedCreate twoAccounts allAdmitted {}).2.trace := by
  have hrun : (admittingGateway.runPlan keyedCreate twoAccounts allAdmitted {}).1 = .err
      (.upstreamFailure (some 500) "upstream_http_500" true "Upstream returned HTTP 500") := by
    rfl
  refine ⟨by decide +kernel, failed_run_marks_last _ _ _ _ _ _ (fun _ => rfl) ?_ hrun⟩
  intro j planned _ hplanned
  have haccounts : ∀ planned ∈ plannedTargets admittingGateway.config twoAccounts false,
      planned.target.account?.isSome = true := by decide +kernel
  refine ⟨haccounts planned (List.mem_of_getElem? hplanned), fun kind s => ?_⟩
  simp [GatewayExecutor.refusal, GatewayExecutor.clientRefusal, GatewayExecutor.admissionRefusal,
    GatewayExecutor.authorityRefusal, GatewayExecutor.quotaRefusal, GatewayExecutor.snapshotRefusal,
    GatewayExecutor.authorizeDispatch, allAdmitted, tracedFailures, serverFailure, sampleSlot,
    admittingGateway, keyedCreate]

/-- **A run can fail with no final attempt**: account `1` answers `500`, a slot that may run is
found, and every slot behind it is refused by the local admission. -/
theorem failed_run_without_final :
    (admittingGateway.runPlan keyedCreate twoAccounts refusedBehind {}).1 = .err
        (.serviceUnavailable "upstream_capacity_exhausted") ∧
      (∀ slot, (refusedBehind.slot slot).traceStarted = true) ∧
      startedAttempts (admittingGateway.runPlan keyedCreate twoAccounts
        refusedBehind {}).2.trace = [0] ∧
      finalAttempts (admittingGateway.runPlan keyedCreate twoAccounts
        refusedBehind {}).2.trace = [] := by
  refine ⟨rfl, fun _ => rfl, ?_, ?_⟩ <;> decide +kernel

end KeyCompute.Gateway
