import KeyCompute.Responses.ClaimStep

/-!
# Runs of claim operations

Any number of holders call the claim operations in any order.  A dispatch is a call of
`mark_execution_dispatched` that answers success: only such an answer lets the caller start the
paid upstream request.  Over a whole run a claim is dispatched at most once, a dispatched row
stays what it was, and the counters and quotas hold (`claims_run_safely`).
-/

namespace KeyCompute.Responses

open ClaimEvent ClaimStore Claim ClaimCall

open Relational (Tx atomically lookup updateWhere runAll)

variable {limit : ℕ} {s s' : ClaimStore}

def ClaimStore.after (s : ClaimStore) (run : List ClaimEvent) : ClaimStore :=
  runAll step run s

/-! ## A call by somebody else than the holder -/

/-- The claim and the token of a call that only the holder may make. -/
def ClaimCall.holder : ClaimCall → Option ((Uuid × String) × Uuid)
  | .markDispatched t b token => some ((t, b), token)
  | .complete r => some ((r.tenantId, r.bindingId), r.executionToken)
  | .release t b token => some ((t, b), token)
  | .expireDispatched t b token => some ((t, b), token)
  | .deleteUnstarted t b token => some ((t, b), token)
  | _ => none

def ClaimCall.reclaims : ClaimCall → Option (Uuid × String)
  | .reclaim t b _ _ => some (t, b)
  | _ => none

/-- What a call may not do: act for a holder whose token is not the current one, take over a
claim that was dispatched, or leave more cached than its quotas allow. -/
structure ClaimEvent.Guarded (e : ClaimEvent) (s : ClaimStore) : Prop where
  holder : ∀ key token, e.call.holder = some (key, token) →
    (∀ c ∈ s.claims, c.key = key → c.executionToken ≠ token) →
      e.step s = s ∧ e.answer s ≠ .done true
  reclaim : ∀ key, e.call.reclaims = some key →
    (∃ c ∈ s.claims, c.key = key ∧ c.dispatched) →
      e.step s = s ∧ e.answer s = .reclaimed none
  quota : ∀ r, e.call = .complete r → e.answer s = .done true → r.replayable →
    ((e.step s).cached r.tenantId).length ≤ r.maxEntries ∧
      (((e.step s).cached r.tenantId).map bodyBytes).sum ≤ r.maxBytes

theorem affected_unstartedBy_eq_zero {tenantId executionToken : Uuid} {bindingId : String}
    (other : ∀ c ∈ s.claims, c.key = (tenantId, bindingId) → c.executionToken ≠ executionToken) :
    s.affected (unstartedBy tenantId bindingId executionToken) = 0 := by
  refine affected_eq_zero.mpr fun c hc => Bool.eq_false_iff.mpr fun met => ?_
  obtain ⟨key, -, token, -⟩ := unstartedBy_iff.mp met
  exact other c hc key token

theorem affected_startedBy_eq_zero {tenantId executionToken : Uuid} {bindingId : String}
    (other : ∀ c ∈ s.claims, c.key = (tenantId, bindingId) → c.executionToken ≠ executionToken) :
    s.affected (startedBy tenantId bindingId executionToken) = 0 := by
  refine affected_eq_zero.mpr fun c hc => Bool.eq_false_iff.mpr fun met => ?_
  obtain ⟨key, -, token, -⟩ := startedBy_iff.mp met
  exact other c hc key token

theorem atomically_done {body : Tx ClaimStore DbError Bool}
    (h : ∀ answer s', body s = (.ok answer, s') → s' = s ∧ answer = false) :
    (atomically body s).2 = s ∧ ClaimAnswer.ofExcept (atomically body s).1 ≠ .done true := by
  rcases hb : atomically body s with ⟨e | answer, s'⟩
  · exact ⟨Relational.atomically_error_state hb, fun h => nomatch h⟩
  · obtain ⟨rfl, rfl⟩ := h _ _ (Relational.atomically_eq_ok.mp hb)
    exact ⟨rfl, by simp [ClaimAnswer.ofExcept]⟩

variable {key : Uuid × String}

theorem ClaimEvent.not_holder (e : ClaimEvent) {token : Uuid}
    (held : e.call.holder = some (key, token))
    (other : ∀ c ∈ s.claims, c.key = key → c.executionToken ≠ token) :
    e.step s = s ∧ e.answer s ≠ .done true := by
  obtain ⟨now, call⟩ := e
  cases call <;>
    simp only [holder, Option.some.injEq, Prod.mk.injEq, reduceCtorEq] at held
  case markDispatched t b token =>
    obtain ⟨rfl, rfl⟩ := held
    have none := affected_unstartedBy_eq_zero other
    exact ⟨update_of_affected_eq_zero none, by
      simp [answer, perform, markExecutionDispatched, none]⟩
  case release t b token =>
    obtain ⟨rfl, rfl⟩ := held
    have none := affected_unstartedBy_eq_zero other
    exact ⟨update_of_affected_eq_zero none, by
      simp [answer, perform, releaseExecution, none]⟩
  case expireDispatched t b token =>
    obtain ⟨rfl, rfl⟩ := held
    have none := affected_startedBy_eq_zero other
    exact ⟨update_of_affected_eq_zero none, by
      simp [answer, perform, expireDispatchedExecution, none]⟩
  case complete r =>
    obtain ⟨rfl, rfl⟩ := held
    have none : s.affected r.finishes = 0 := affected_startedBy_eq_zero other
    refine atomically_done fun answer s' h => ?_
    rcases completeExecutionWithQuota_cases h with
      ⟨-, rfl, rfl⟩ | ⟨-, -, some, -⟩ | ⟨-, rfl, rfl⟩
    · exact ⟨rfl, rfl⟩
    · exact absurd none some
    · exact ⟨update_of_affected_eq_zero none, by simp [none]⟩
  case deleteUnstarted t b token =>
    obtain ⟨rfl, rfl⟩ := held
    have none := affected_unstartedBy_eq_zero other
    refine atomically_done fun answer s' h => ?_
    rcases deleteUnstartedExecution_cases h with ⟨rfl, rfl⟩ | ⟨-, rfl, rfl⟩ | ⟨one, -⟩
    · exact ⟨rfl, rfl⟩
    · exact ⟨delete_of_affected_eq_zero none, rfl⟩
    · omega

theorem reclaimExpiredExecution_of_dispatched (now lease : Timestamp) (token : Uuid) {c : Claim}
    (unique : (s.claims.map Claim.key).Nodup) (hc : c ∈ s.claims) (sent : c.dispatched) :
    reclaimExpiredExecution now c.tenantId c.bindingId token lease s = (none, s) := by
  have unmet : s.affected (Claim.reclaimable now c.tenantId c.bindingId) = 0 := by
    refine affected_eq_zero.mpr fun c' hc' => Bool.eq_false_iff.mpr fun met => ?_
    obtain ⟨tenant, binding, -, fresh, -⟩ := of_decide_eq_true met
    rw [List.inj_on_of_nodup_map unique hc' hc (Prod.ext tenant binding), sent] at fresh
    exact Bool.noConfusion fresh
  simp only [reclaimExpiredExecution, unmet, if_true,
    update_of_affected_eq_zero unmet]

theorem ClaimEvent.guarded (e : ClaimEvent) (hs : s.Sound limit) : e.Guarded s where
  holder _ _ held other := e.not_holder held other
  reclaim key taken := by
    rintro ⟨c, hc, rfl, sent⟩
    obtain ⟨now, call⟩ := e
    cases call <;> simp only [reclaims, Option.some.injEq, reduceCtorEq] at taken
    case reclaim t b token lease =>
      obtain ⟨rfl, rfl⟩ := Prod.mk.inj taken
      have refused := reclaimExpiredExecution_of_dispatched now lease token hs.unique hc sent
      simp [step, answer, perform, refused]
  quota r completes success fits := by
    obtain ⟨now, call⟩ := e
    obtain rfl : call = .complete r := completes
    have committed : ∃ s', atomically (completeExecutionWithQuota now r) s = (.ok true, s') := by
      simp only [answer, perform] at success
      rcases h : atomically (completeExecutionWithQuota now r) s with ⟨e | answer, s'⟩
      · rw [h] at success
        cases success
      · rw [h] at success
        simp only [Prod.map, ClaimAnswer.ofExcept, ClaimAnswer.done.injEq] at success
        exact ⟨s', success ▸ rfl⟩
    obtain ⟨s', h⟩ := committed
    have stepped : (mk now (.complete r)).step s = s' := by
      simp [step, perform, h]
    rw [stepped]
    have body := Relational.atomically_eq_ok.mp h
    have unique := (completeExecutionWithQuota_moves hs.unique body).map_key ▸ hs.unique
    rcases completeExecutionWithQuota_cases body with
      ⟨-, wrong, -⟩ | ⟨-, -, -, rfl⟩ | ⟨unfit, -, -⟩
    · exact absurd wrong (by simp)
    · exact evict_within _ _ _ unique
    · exact absurd fits unfit

/-! ## Dispatches -/

def ClaimEvent.dispatches (key : Uuid × String) (e : ClaimEvent) (s : ClaimStore) : Bool :=
  match e.call with
  | .markDispatched t b token => (t, b) = key ∧ (markExecutionDispatched e.now t b token s).1
  | _ => false

def dispatchCount (key : Uuid × String) : List ClaimEvent → ClaimStore → ℕ
  | [], _ => 0
  | e :: rest, s => (if e.dispatches key s then 1 else 0) + dispatchCount key rest (e.step s)

def ClaimStore.Dispatched (key : Uuid × String) (s : ClaimStore) : Prop :=
  ∃ c ∈ s.claims, c.key = key ∧ c.dispatched

theorem ClaimEvent.dispatches_iff {e : ClaimEvent} (h : e.dispatches key s) :
    (∃ c ∈ s.claims, c.key = key ∧ c.dispatched = false) ∧ (e.step s).Dispatched key := by
  obtain ⟨now, call⟩ := e
  cases call <;> simp only [dispatches, decide_eq_true_eq, Bool.false_eq_true] at h
  case markDispatched t b token =>
    obtain ⟨rfl, one⟩ := h
    have one : s.affected (unstartedBy t b token) = 1 := of_decide_eq_true one
    have some : s.affected (unstartedBy t b token) ≠ 0 := by omega
    rw [Ne, affected_eq_zero] at some
    push Not at some
    obtain ⟨c, hc, met⟩ := some
    have met : c.unstartedBy t b token := by simpa using met
    obtain ⟨key, -, -, fresh⟩ := unstartedBy_iff.mp met
    refine ⟨⟨c, hc, key, fresh⟩, { c with upstreamDispatchedAt := Option.some now }, ?_, key, rfl⟩
    exact Relational.mem_updateWhere.mpr ⟨c, hc, if_pos met⟩

/-- **A claim is dispatched at most once**, and not at all where it was dispatched before. -/
theorem dispatchCount_le :
    ∀ (run : List ClaimEvent) {s : ClaimStore}, s.Sound limit →
      (∀ e ∈ run, e.Configured limit) →
      dispatchCount key run s ≤ 1 ∧ (s.Dispatched key → dispatchCount key run s = 0) := by
  intro run
  induction run with
  | nil => exact fun _ _ => ⟨Nat.zero_le _, fun _ => rfl⟩
  | cons e rest ih =>
    intro s hs configured
    have change := e.step_change (configured e List.mem_cons_self) hs
    obtain ⟨atMost, never⟩ := ih (change.sound hs) fun e' he' =>
      configured e' (List.mem_cons_of_mem _ he')
    simp only [dispatchCount]
    constructor
    · split
      · rename_i now
        rw [never (dispatches_iff now).2]
      · omega
    · rintro ⟨c, hc, key, sent⟩
      obtain ⟨c', hc', moves⟩ := change.kept hc sent
      rw [never ⟨c', hc', moves.key.trans key, moves.dispatched sent⟩, if_neg]
      intro now
      obtain ⟨⟨c₀, hc₀, key₀, fresh⟩, -⟩ := dispatches_iff now
      rw [List.inj_on_of_nodup_map hs.unique hc₀ hc (key₀.trans key.symm), sent] at fresh
      exact Bool.noConfusion fresh

/-! ## Whole runs -/

theorem Claim.Valid.dispatched {c : Claim} (h : c.Valid)
    (finished : c.executionState ≠ .inProgress) :
    c.dispatched := by
  unfold Valid at h
  split at h
  · exact absurd ‹_› finished
  · exact h.1
  · exact h.2.1

theorem after_sound (run : List ClaimEvent) (hs : s.Sound limit)
    (configured : ∀ e ∈ run, e.Configured limit) : (s.after run).Sound limit :=
  Relational.runAll_invariant_of (fun e _ he h => (e.step_change he h).sound h) run s configured hs

theorem after_kept :
    ∀ (run : List ClaimEvent) {s : ClaimStore} {c : Claim}, s.Sound limit →
      (∀ e ∈ run, e.Configured limit) → c ∈ s.claims → c.dispatched →
      ∃ c' ∈ (s.after run).claims, c.Moves c' := by
  intro run
  induction run with
  | nil => exact fun {s c} _ _ hc _ => ⟨c, hc, Moves.refl c⟩
  | cons e rest ih =>
    intro s c hs configured hc sent
    have change := e.step_change (configured e List.mem_cons_self) hs
    obtain ⟨c₁, hc₁, moves⟩ := change.kept hc sent
    obtain ⟨c', hc', moves'⟩ := ih (change.sound hs)
      (fun e' he' => configured e' (List.mem_cons_of_mem _ he')) hc₁ (moves.dispatched sent)
    exact ⟨c', hc', moves.trans moves'⟩

/-- From one point of a run to a later one: a dispatched row is still there with its identity,
its dispatch and its token, and a finished one is still finished. -/
def ClaimStore.FencedUntil (s s' : ClaimStore) : Prop :=
  ∀ c ∈ s.claims,
    (c.dispatched → ∃ c' ∈ s'.claims, c'.identity = c.identity ∧
      c'.upstreamDispatchedAt = c.upstreamDispatchedAt ∧
      c'.executionToken = c.executionToken) ∧
    (c.executionState ≠ .inProgress →
      ∃ c' ∈ s'.claims, c'.key = c.key ∧ c'.executionState ≠ .inProgress)

/-- **Claims are dispatched at most once and respect their quotas**, in every run from a sound
store whose binds are configured with at most `limit` identities. -/
theorem claims_run_safely (s : ClaimStore) (hs : s.Sound limit) (run : List ClaimEvent)
    (configured : ∀ e ∈ run, e.Configured limit) :
    (∀ key, dispatchCount key run s ≤ 1) ∧
      (∀ earlier later, run = earlier ++ later →
        (s.after earlier).FencedUntil (s.after run)) ∧
      (∀ earlier e later, run = earlier ++ e :: later → e.Guarded (s.after earlier)) ∧
      ((s.after run).claims.map Claim.key).Nodup ∧
      ∀ t ∈ (s.after run).tenants,
        t.responsesIdempotencyClaimCount = (s.after run).rows t.id ∧
          t.responsesIdempotencyClaimCount ≤ limit ∧
          t.responsesIdempotencyClaimCount ≤ maxIdentitiesPerTenant := by
  have final := after_sound run hs configured
  refine ⟨fun key => (dispatchCount_le run hs configured).1, ?_, ?_, final.unique, ?_⟩
  · rintro earlier later rfl c hc
    have reached := after_sound earlier hs fun e he => configured e (List.mem_append_left _ he)
    have kept : c.dispatched → ∃ c' ∈ (s.after (earlier ++ later)).claims, c.Moves c' := by
      rw [ClaimStore.after, Relational.runAll_append]
      exact after_kept later reached (fun e he => configured e (List.mem_append_right _ he)) hc
    constructor
    · intro sent
      obtain ⟨c', hc', moves⟩ := kept sent
      exact ⟨c', hc', moves.identity, moves.fenced sent⟩
    · intro finished
      obtain ⟨c', hc', moves⟩ := kept ((reached.valid c hc).dispatched finished)
      exact ⟨c', hc', moves.key, moves.finished finished⟩
  · rintro earlier e later rfl
    exact e.guarded (after_sound earlier hs fun e he => configured e (List.mem_append_left _ he))
  · intro t ht
    have bounded := final.bounded t ht
    exact ⟨final.counted t ht, by omega, by omega⟩

/-- A store with one tenant, no claims and one member. -/
def oneTenant : ClaimStore where
  tenants := [⟨1, 0⟩]
  memberships := [(1, 2)]
  claims := []

def sampleBind : BindRequest where
  tenantId := 1
  bindingId := "key"
  requestFingerprint := "fingerprint"
  billingRequestId := 3
  userId := 2
  accountId := 4
  details := ⟨5, "openai", none, 0⟩
  executionToken := 6
  leaseExpiresAt := 10

/-- A holder loses its lease, the next one starts the upstream call, and both try to start it
again. -/
def sampleRun : List ClaimEvent :=
  [⟨0, .bind sampleBind 1⟩, ⟨20, .reclaim 1 "key" 7 30⟩, ⟨21, .markDispatched 1 "key" 6⟩,
    ⟨22, .markDispatched 1 "key" 7⟩, ⟨23, .markDispatched 1 "key" 7⟩, ⟨40, .reclaim 1 "key" 8 50⟩,
    ⟨41, .deleteUnstarted 1 "key" 7⟩]

theorem oneTenant_sound : oneTenant.Sound 1 where
  unique := by decide
  tenantUnique := by decide
  counted := by decide
  bounded := by decide
  valid c hc := absurd hc List.not_mem_nil

theorem sampleRun_configured : ∀ e ∈ sampleRun, e.Configured 1 := by
  intro e he r maxIdentities call
  simp only [sampleRun, List.mem_cons, List.not_mem_nil, or_false] at he
  rcases he with rfl | rfl | rfl | rfl | rfl | rfl | rfl <;> cases call
  exact le_rfl

/-- The rule at the sample run, in which the claim is dispatched. -/
theorem claims_run_safely_sampleRun :
    dispatchCount (1, "key") sampleRun oneTenant = 1 ∧
      (oneTenant.after (sampleRun.take 4)).FencedUntil (oneTenant.after sampleRun) ∧
      (oneTenant.after sampleRun).claims.length = 1 := by
  refine ⟨by decide +kernel, ?_, by decide +kernel⟩
  exact (claims_run_safely oneTenant oneTenant_sound sampleRun sampleRun_configured).2.1
    _ (sampleRun.drop 4) (List.take_append_drop 4 sampleRun).symm

end KeyCompute.Responses
