import KeyCompute.Database.Value

/-!
# Execution plans and the policy on failures

`plannedTargets` is the list of **slots** that `run_plan` of `llm-gateway/src/executor.rs` works
through: every account gets its retries, and each attempt on an OpenAI account is followed by a slot
for the repetition without `stream_options`, which runs only when the attempt asked for it.

After a failed attempt, `failureContinuation` says whether the chain may go on at all, only on the
same account, or anywhere, and `nextRunnableTargetIndex` which slot is next.
-/

namespace KeyCompute.Gateway

open List

/-! ## Errors -/

inductive PassthroughBindingError where
  | notFound | modelNotSupported | unavailable | changed | healthUnknown | modelUnhealthy
  | capacityExhausted | dependencyUnavailable | invalidPlan | ambiguous
  deriving DecidableEq

inductive KeyComputeError where
  | authError (message : String)
  | permissionDenied (code : String)
  | verificationError (message : String)
  | rateLimitExceeded (message : String)
  | routingFailed (model : String)
  | noReadyNode (model : String)
  | passthroughBinding (e : PassthroughBindingError)
  | providerError (message : String)
  | providerTimeout (millis : Nat) (message : String)
  | upstreamFailure (status : Option Nat) (stableCode : String) (retryable : Bool)
      (summary : String)
  | databaseError (message : String)
  | configError (message : String)
  | serviceUnavailable (code : String)
  | internal (message : String)
  | serializationError (message : String)
  | validationError (message : String)
  | notFound (message : String)
  | invalidRequest (message : String)
  | networkError (message : String)
  | timeout (message : String)
  deriving DecidableEq

namespace KeyComputeError

def isRetryable : KeyComputeError → Bool
  | providerError _ | providerTimeout .. | networkError _ | timeout _ | serviceUnavailable _
  | databaseError _ => true
  | upstreamFailure _ _ retryable _ => retryable
  | _ => false

def isPayloadCapacityError : KeyComputeError → Bool
  | serviceUnavailable code => code = "process_payload_memory_exhausted"
  | upstreamFailure _ stableCode _ _ =>
    stableCode = "upstream_body_capacity_exhausted" ∨
      stableCode = "upstream_json_capacity_exhausted"
  | _ => false

def isDispatchAuthorityError : KeyComputeError → Bool
  | permissionDenied code => code = "execution_authority_invalid"
  | serviceUnavailable code => code = "execution_authority_unavailable"
  | _ => false

/-- The third component of `classify_execution_error`, which decides on retries. -/
def retryableAttempt (e : KeyComputeError) : Bool :=
  if e.isDispatchAuthorityError then false
  else
    match e with
    | upstreamFailure _ _ retryable _ => retryable
    | timeout _ | providerTimeout .. => true
    | e => e.isRetryable

def normalizeStreamError : KeyComputeError → KeyComputeError
  | providerError _ =>
    upstreamFailure none "upstream_stream_protocol" false
      "Upstream response stream was malformed or incomplete"
  | e => e

def providerDeclaredStreamError : KeyComputeError :=
  upstreamFailure none "upstream_declared_error" false "Upstream reported a stream error"

/-- The account has to be tried again without `stream_options`. -/
def streamOptionsUnsupported : KeyComputeError → Bool
  | upstreamFailure _ stableCode _ _ => stableCode = "upstream_stream_options_unsupported"
  | _ => false

end KeyComputeError

/-! ## Targets and plans -/

structure PassthroughBindingSelection where
  bindingId : Uuid
  bindingRevision : ℤ
  deriving DecidableEq

inductive AccountSelection where
  | pool
  | passthroughBinding (selection : PassthroughBindingSelection)
  | responseAffinity
  deriving DecidableEq

inductive ExecutionTarget where
  | upstreamAccount (provider : String) (accountId : Uuid) (endpoint upstreamApiKey : String)
      (selection : AccountSelection)
  | nodeDispatch (model : String)
  deriving DecidableEq

namespace ExecutionTarget

def account? : ExecutionTarget → Option Uuid
  | upstreamAccount _ accountId _ _ _ => some accountId
  | nodeDispatch _ => none

def isOpenAi : ExecutionTarget → Bool
  | upstreamAccount provider _ _ _ _ => provider = "openai"
  | nodeDispatch _ => false

def binding? : ExecutionTarget → Option PassthroughBindingSelection
  | upstreamAccount _ _ _ _ (.passthroughBinding selection) => some selection
  | _ => none

def sameProviderAccount : ExecutionTarget → ExecutionTarget → Bool
  | upstreamAccount _ left _ _ _, upstreamAccount _ right _ _ _ => left = right
  | _, _ => false

theorem sameProviderAccount_iff {a b : ExecutionTarget} :
    a.sameProviderAccount b = true ↔ ∃ account, a.account? = some account ∧
      b.account? = some account := by
  cases a with
  | nodeDispatch model => simp [sameProviderAccount, account?]
  | upstreamAccount provider left endpoint key selection =>
    cases b with
    | nodeDispatch model => simp [sameProviderAccount, account?]
    | upstreamAccount provider' right endpoint' key' selection' =>
      simp [sameProviderAccount, account?, eq_comm]

theorem sameProviderAccount_trans {a b c : ExecutionTarget}
    (h : a.sameProviderAccount b = true) (h' : b.sameProviderAccount c = true) :
    a.sameProviderAccount c = true := by
  obtain ⟨account, ha, hb⟩ := sameProviderAccount_iff.mp h
  obtain ⟨account', hb', hc⟩ := sameProviderAccount_iff.mp h'
  rw [hb] at hb'
  cases hb'
  exact sameProviderAccount_iff.mpr ⟨account, ha, hc⟩

theorem account?_of_binding? {target : ExecutionTarget} (h : target.binding?.isSome = true) :
    ∃ account, target.account? = some account := by
  cases target with
  | upstreamAccount provider accountId endpoint key selection => exact ⟨accountId, rfl⟩
  | nodeDispatch model => cases h

end ExecutionTarget

structure ExecutionPlan where
  primary : ExecutionTarget
  fallbackChain : List ExecutionTarget

/-- `GatewayConfig`, without the limits on time. -/
structure GatewayConfig where
  maxRetries : Nat
  enableFallback : Bool

/-- `RequestContext`, as far as `run_plan` reads it; an optional hook is whether it is there.
`estimatedInputTokens` is `estimate_context_input_tokens` of the request. -/
structure RequestContext where
  model : String
  estimatedInputTokens : Nat
  passthroughBinding : Option PassthroughBindingSelection
  passthroughBindingValidator : Bool
  accountModelHealthObserver : Bool
  passthroughBindingAccountConfigVersion : Option ℤ
  nativeOpenaiResponsesRequest : Bool
  nativeOpenaiResponsesHeaders : List (String × String)

/-- `native_openai_responses_headers.contains_key("idempotency-key")`. -/
def RequestContext.hasIdempotencyKey (ctx : RequestContext) : Bool :=
  ctx.nativeOpenaiResponsesHeaders.any fun header => header.1 = "idempotency-key"

/-! ## Slots -/

structure PlannedTarget where
  target : ExecutionTarget
  streamOptionsCompatibilityRetry : Bool
  deriving DecidableEq

def retriesPerAccount (config : GatewayConfig) (bound : Bool) : Nat :=
  if bound then 0 else min config.maxRetries 10

def routedTargets (config : GatewayConfig) (plan : ExecutionPlan) (bound : Bool) :
    List ExecutionTarget :=
  plan.primary :: if ¬ bound ∧ config.enableFallback then plan.fallbackChain else []

/-- One logical attempt: its slot, and the slot of its compatibility retry. -/
def attemptSlots (bound : Bool) (target : ExecutionTarget) : List PlannedTarget :=
  ⟨target, false⟩ :: if ¬ bound ∧ target.isOpenAi then [⟨target, true⟩] else []

def logicalAttempts (retries : Nat) (target : ExecutionTarget) : Nat :=
  if target.account?.isSome then retries + 1 else 1

def entrySlots (retries : Nat) (bound : Bool) (target : ExecutionTarget) : List PlannedTarget :=
  (replicate (logicalAttempts retries target) (attemptSlots bound target)).flatten

def plannedTargets (config : GatewayConfig) (plan : ExecutionPlan) (bound : Bool) :
    List PlannedTarget :=
  (routedTargets config plan bound).flatMap (entrySlots (retriesPerAccount config bound) bound)

/-- Each slot with the entry of the plan it belongs to, the primary being entry `0`. -/
def slotTable (config : GatewayConfig) (plan : ExecutionPlan) (bound : Bool) :
    List (PlannedTarget × Nat) :=
  (routedTargets config plan bound).zipIdx.flatMap fun entry =>
    (entrySlots (retriesPerAccount config bound) bound entry.1).map fun slot => (slot, entry.2)

def slotEntry (config : GatewayConfig) (plan : ExecutionPlan) (bound : Bool) (slot : Nat) :
    Option Nat :=
  (slotTable config plan bound)[slot]?.map Prod.snd

/-! ## Policy -/

inductive FailureContinuation where
  | stop | sameAccountOnly | retryOrFallback
  deriving DecidableEq

/-- The statusless failures after which the outcome at the provider is unknown. -/
def ambiguousCodes : List String :=
  ["upstream_ambiguous_timeout", "upstream_ambiguous_transport", "upstream_body_read",
    "upstream_stream_read", "upstream_stream_protocol"]

def failureContinuation (ctx : RequestContext) (e : KeyComputeError) : FailureContinuation :=
  if e.isDispatchAuthorityError then .stop
  else
    match e with
    | .upstreamFailure (some status) _ _ _ =>
      if 200 ≤ status ∧ status ≤ 299 then .stop
      else if 500 ≤ status ∧ ctx.nativeOpenaiResponsesRequest then
        if ctx.hasIdempotencyKey then .sameAccountOnly else .stop
      else .retryOrFallback
    | .upstreamFailure none stableCode _ _ =>
      if stableCode ∈ ambiguousCodes then .stop else .retryOrFallback
    | _ => .retryOrFallback

/-- The slot is not a compatibility retry, or one that was asked for. -/
def PlannedTarget.runnable (pending : List Uuid) (candidate : PlannedTarget) : Bool :=
  !candidate.streamOptionsCompatibilityRetry ||
    candidate.target.account?.any fun account => account ∈ pending

/-- The first slot after `current` that satisfies `p`. -/
def findAfter (targets : List PlannedTarget) (current : Nat) (p : PlannedTarget → Bool) :
    Option Nat :=
  (range targets.length).find? fun index =>
    decide (current < index) && targets[index]?.any p

def nextRunnableTargetIndex (targets : List PlannedTarget) (currentIndex : Nat)
    (currentTarget : ExecutionTarget) (retryable : Bool) (pending : List Uuid) : Option Nat :=
  findAfter targets currentIndex fun candidate =>
    candidate.runnable pending &&
      (retryable || !currentTarget.sameProviderAccount candidate.target)

/-- The first slot of another account, or the end: where a locally refused account is left. -/
def nextAccountIndex (targets : List PlannedTarget) (currentIndex : Nat)
    (target : ExecutionTarget) : Nat :=
  (findAfter targets currentIndex fun next => !target.sameProviderAccount next.target).getD
    targets.length

theorem findAfter_eq_some {targets : List PlannedTarget} {current index : Nat}
    {p : PlannedTarget → Bool} (h : findAfter targets current p = some index) :
    current < index ∧ ∃ candidate, targets[index]? = some candidate ∧ p candidate = true := by
  have hfound := find?_some h
  rw [Bool.and_eq_true] at hfound
  refine ⟨of_decide_eq_true hfound.1, ?_⟩
  cases hget : targets[index]? with
  | none =>
    rw [hget] at hfound
    cases hfound.2
  | some candidate =>
    rw [hget] at hfound
    exact ⟨candidate, rfl, hfound.2⟩

/-! ## How many slots there are -/

section Count

variable {config : GatewayConfig} {plan : ExecutionPlan} {bound : Bool} {retries : Nat}
  {target : ExecutionTarget}

variable {p : PlannedTarget}

theorem mem_attemptSlots (h : p ∈ attemptSlots bound target) :
    p.target = target := by
  unfold attemptSlots at h
  split at h <;> simp at h
  · rcases h with rfl | rfl <;> rfl
  · rw [h]

theorem length_attemptSlots_le : (attemptSlots bound target).length ≤ 2 := by
  unfold attemptSlots
  split <;> simp

theorem length_entrySlots_le : (entrySlots retries bound target).length ≤ 2 * (retries + 1) := by
  have hattempts : logicalAttempts retries target ≤ retries + 1 := by
    unfold logicalAttempts
    split <;> omega
  rw [entrySlots, length_flatten, map_replicate, sum_replicate_nat]
  calc logicalAttempts retries target * (attemptSlots bound target).length
      ≤ (retries + 1) * 2 := Nat.mul_le_mul hattempts length_attemptSlots_le
    _ = 2 * (retries + 1) := Nat.mul_comm _ _

theorem mem_entrySlots (h : p ∈ entrySlots retries bound target) :
    p.target = target := by
  obtain ⟨slots, hslots, hp⟩ := mem_flatten.mp h
  rw [eq_of_mem_replicate hslots] at hp
  exact mem_attemptSlots hp

theorem map_fst_slotTable :
    (slotTable config plan bound).map Prod.fst = plannedTargets config plan bound := by
  rw [slotTable, plannedTargets, map_flatMap]
  generalize routedTargets config plan bound = routed
  have hzip : ∀ n, ((routed.zipIdx n).flatMap fun entry =>
      ((entrySlots (retriesPerAccount config bound) bound entry.1).map
        fun slot => (slot, entry.2)).map Prod.fst) =
      routed.flatMap (entrySlots (retriesPerAccount config bound) bound) := by
    induction routed with
    | nil => simp
    | cons target rest ih =>
      intro n
      rw [zipIdx_cons, flatMap_cons, flatMap_cons, ih, map_map]
      congr 1
      exact map_id _
  exact hzip 0

theorem slotEntry_target {slot entry : Nat} (hentry : slotEntry config plan bound slot = some entry)
    (hslot : (plannedTargets config plan bound)[slot]? = some p) :
    (plan.primary :: plan.fallbackChain)[entry]? = some p.target := by
  obtain ⟨row, hrow, rfl⟩ := Option.map_eq_some_iff.mp hentry
  have hfst : row.1 = p := by
    rw [← map_fst_slotTable, getElem?_map, hrow] at hslot
    exact Option.some.inj hslot
  obtain ⟨routed, hrouted, hmem⟩ := mem_flatMap.mp (mem_of_getElem? hrow)
  obtain ⟨slot', hslot', rfl⟩ := mem_map.mp hmem
  have htarget : p.target = routed.1 := by
    rw [← hfst]
    exact mem_entrySlots hslot'
  rw [htarget]
  have hindex : (routedTargets config plan bound)[routed.2]? = some routed.1 := by
    have h := mem_zipIdx_iff_getElem?.mp hrouted
    simpa using h
  unfold routedTargets at hindex
  split at hindex
  · exact hindex
  · cases hk : routed.2 with
    | zero =>
      rw [hk] at hindex
      exact hindex
    | succ k =>
      rw [hk] at hindex
      cases hindex

theorem count_slotTable_le (entry : Nat) :
    ((slotTable config plan bound).map Prod.snd).count entry ≤
      2 * (retriesPerAccount config bound + 1) := by
  rw [slotTable, map_flatMap]
  generalize retriesPerAccount config bound = retries
  generalize routedTargets config plan bound = routed
  -- entries are numbered once each, so only one block of slots counts
  have hblock : ∀ n, ((routed.zipIdx n).flatMap fun entry =>
      ((entrySlots retries bound entry.1).map fun slot => (slot, entry.2)).map Prod.snd).count
        entry ≤ if entry < n then 0 else 2 * (retries + 1) := by
    induction routed with
    | nil => simp
    | cons target rest ih =>
      intro n
      have hreplicate : ((entrySlots retries bound target).map fun slot => (slot, n)).map Prod.snd =
          replicate (entrySlots retries bound target).length n := by
        rw [map_map]
        exact map_const' ..
      rw [zipIdx_cons, flatMap_cons, count_append, hreplicate,
        count_replicate]
      have hrest := ih (n + 1)
      have hlen : (entrySlots retries bound target).length ≤ 2 * (retries + 1) :=
        length_entrySlots_le
      simp only [beq_iff_eq]
      by_cases hn : n = entry
      · rw [if_pos hn, if_neg (by omega)]
        rw [if_pos (by omega)] at hrest
        omega
      · rw [if_neg hn]
        by_cases hlt : entry < n
        · rw [if_pos hlt]
          rw [if_pos (by omega)] at hrest
          omega
        · rw [if_neg hlt]
          rw [if_neg (by omega)] at hrest
          omega
  have h := hblock 0
  rwa [if_neg (Nat.not_lt_zero entry)] at h

/-- **Slots that are all different** are no more, for one entry, than the entry has. -/
theorem length_filter_slotEntry_le (config : GatewayConfig) (plan : ExecutionPlan) (bound : Bool)
    {slots : List Nat} (hnodup : slots.Nodup) (entry : Nat) :
    (slots.filter fun slot => slotEntry config plan bound slot = some entry).length ≤
      2 * (retriesPerAccount config bound + 1) := by
  set entries := (slotTable config plan bound).map Prod.snd with hentries
  have hall : (slots.filter fun slot => slotEntry config plan bound slot = some entry).Subperm
      ((List.range entries.length).filter fun slot => entries[slot]? = some entry) := by
    refine List.subperm_of_subset (hnodup.filter _) ?_
    intro slot hslot
    rw [List.mem_filter, decide_eq_true_eq] at hslot
    have hget : entries[slot]? = some entry := by
      rw [hentries, List.getElem?_map]
      exact hslot.2
    have hlt : slot < entries.length := (List.getElem?_eq_some_iff.mp hget).1
    simp only [List.mem_filter, List.mem_range, decide_eq_true_eq]
    exact ⟨hlt, hget⟩
  have hcount :
      ((List.range entries.length).filter fun slot => entries[slot]? = some entry).length =
      entries.count entry := by
    have hmap : (List.range entries.length).map (fun slot => entries[slot]?) =
      entries.map some := by
      apply List.ext_getElem?
      intro i
      by_cases hi : i < entries.length
      · simp [hi]
      · simp [hi]
    have hcountP := congrArg (List.count (some entry)) hmap
    rw [List.count_map_of_injective _ _ (fun _ _ => Option.some.inj), List.count, List.countP_map]
      at hcountP
    rw [← List.countP_eq_length_filter, ← hcountP]
    congr 1
    funext slot
    exact (beq_eq_decide _ _).symm
  calc _ ≤ _ := hall.length_le
    _ = entries.count entry := hcount
    _ ≤ _ := count_slotTable_le entry

theorem plannedTargets_bound (config : GatewayConfig) (plan : ExecutionPlan)
    {account : Uuid} (haccount : plan.primary.account? = some account) :
    plannedTargets config plan true = [⟨plan.primary, false⟩] := by
  simp [plannedTargets, routedTargets, retriesPerAccount, entrySlots, logicalAttempts, haccount,
    attemptSlots]

end Count

end KeyCompute.Gateway
