import KeyCompute.Responses.ReplayQuota

/-!
# One claim operation

Holders call the claim operations with any tokens and at any times.  What a call does to the
rows is said once (`ClaimEvent.step_change`): every row **moves** (`Claim.Moves`: its identity
stays, a dispatch and its token stay, a finished execution stays finished), unless the call
inserts one fresh row or deletes one undispatched row.  Keys, counters and the table's check
are kept by each of these (`ClaimStore.Change.sound`).
-/

namespace KeyCompute.Responses

open ClaimStore Claim Relational List

open Relational (Tx atomically lookup updateWhere runAll)

/-! ## What a row may become -/

/-- The columns no operation writes once the row exists. -/
def Claim.identity (c : Claim) : Uuid × String × String × Uuid × Uuid × Uuid :=
  (c.tenantId, c.bindingId, c.requestFingerprint, c.billingRequestId, c.userId, c.accountId)

/-- The `CHECK` of the table on the execution state and what belongs to it. -/
def Claim.Valid (c : Claim) : Prop :=
  match c.executionState with
  | .inProgress => c.response = none ∧ c.completedAt = none
  | .completed =>
    c.dispatched = true ∧ c.completedAt.isSome = true ∧
      ∃ r, c.response = some r ∧ 100 ≤ r.status ∧ r.status ≤ 599 ∧
        r.bodyBytes ≤ maxResponseBodyBytes ∧ r.bodyBytes = r.body.utf8ByteSize
  | .expired => c.response = none ∧ c.dispatched = true ∧ c.completedAt.isSome = true

structure Claim.Moves (c c' : Claim) : Prop where
  identity : c'.identity = c.identity
  fenced : c.dispatched → c'.upstreamDispatchedAt = c.upstreamDispatchedAt ∧
    c'.executionToken = c.executionToken
  finished : c.executionState ≠ .inProgress → c'.executionState ≠ .inProgress
  valid : c.Valid → c'.Valid

namespace Claim.Moves

variable {c c' c'' : Claim}

theorem refl (c : Claim) : c.Moves c := ⟨rfl, fun _ => ⟨rfl, rfl⟩, id, id⟩

theorem dispatched (h : c.Moves c') (hc : c.dispatched) : c'.dispatched := by
  rw [Claim.dispatched, (h.fenced hc).1]
  exact hc

theorem trans (h : c.Moves c') (h' : c'.Moves c'') : c.Moves c'' where
  identity := h'.identity.trans h.identity
  fenced hc := ⟨(h'.fenced (h.dispatched hc)).1.trans (h.fenced hc).1,
    (h'.fenced (h.dispatched hc)).2.trans (h.fenced hc).2⟩
  finished hc := h'.finished (h.finished hc)
  valid hc := h'.valid (h.valid hc)

theorem key (h : c.Moves c') : c'.key = c.key := by
  have := h.identity
  simp only [Claim.identity, Prod.mk.injEq] at this
  rw [Claim.key, Claim.key, this.1, this.2.1]

theorem tenantId (h : c.Moves c') : c'.tenantId = c.tenantId := congrArg Prod.fst h.key

end Claim.Moves

/-! ## What a call may do to the store -/

def ClaimStore.rows (s : ClaimStore) (tenantId : Uuid) : ℕ :=
  s.claims.countP fun c => c.tenantId = tenantId

/-- Every row moves and nothing else changes. -/
def ClaimStore.RowsMove (s s' : ClaimStore) : Prop :=
  s'.tenants = s.tenants ∧
    ∃ g : Claim → Claim, s'.claims = s.claims.map g ∧ ∀ c ∈ s.claims, c.Moves (g c)

/-- The claims and counters, where every bind is configured with at most `limit` identities. -/
structure ClaimStore.Sound (limit : ℕ) (s : ClaimStore) : Prop where
  unique : (s.claims.map key).Nodup
  tenantUnique : (s.tenants.map ClaimTenant.id).Nodup
  counted : ∀ t ∈ s.tenants, t.responsesIdempotencyClaimCount = s.rows t.id
  bounded : ∀ t ∈ s.tenants,
    t.responsesIdempotencyClaimCount ≤ (min limit maxIdentitiesPerTenant : ℕ)
  valid : ∀ c ∈ s.claims, c.Valid

variable {limit : ℕ} {s s' s'' : ClaimStore}

namespace ClaimStore.RowsMove

theorem refl (s : ClaimStore) : s.RowsMove s :=
  ⟨rfl, id, (map_id _).symm, fun c _ => Moves.refl c⟩

theorem trans (h : s.RowsMove s') (h' : s'.RowsMove s'') : s.RowsMove s'' := by
  obtain ⟨tenants, g, claims, moves⟩ := h
  obtain ⟨tenants', g', claims', moves'⟩ := h'
  refine ⟨tenants'.trans tenants, g' ∘ g, by rw [claims', claims, map_map], ?_⟩
  intro c hc
  exact (moves c hc).trans (moves' (g c) (claims ▸ mem_map_of_mem hc))

theorem update {p : Claim → Bool} {f : Claim → Claim}
    (h : ∀ c ∈ s.claims, p c → c.Moves (f c)) : s.RowsMove (s.update p f) := by
  refine ⟨rfl, _, rfl, fun c hc => ?_⟩
  split
  · exact h c hc ‹_›
  · exact Moves.refl c

theorem mem (h : s.RowsMove s') {c : Claim} (hc : c ∈ s.claims) :
    ∃ c' ∈ s'.claims, c.Moves c' := by
  obtain ⟨-, g, claims, moves⟩ := h
  exact ⟨g c, claims ▸ mem_map_of_mem hc, moves c hc⟩

theorem map_key (h : s.RowsMove s') : s'.claims.map key = s.claims.map key := by
  obtain ⟨-, g, claims, moves⟩ := h
  rw [claims, map_map]
  exact map_congr_left fun c hc => (moves c hc).key

theorem rows (h : s.RowsMove s') (tenantId : Uuid) : s'.rows tenantId = s.rows tenantId := by
  obtain ⟨-, g, claims, moves⟩ := h
  rw [ClaimStore.rows, ClaimStore.rows, claims, countP_map]
  refine countP_congr fun c hc => ?_
  simp [(moves c hc).tenantId]

theorem sound (h : s.RowsMove s') (hs : s.Sound limit) : s'.Sound limit where
  unique := h.map_key ▸ hs.unique
  tenantUnique := h.1 ▸ hs.tenantUnique
  counted t ht := by
    rw [h.rows]
    exact hs.counted t (h.1 ▸ ht)
  bounded t ht := hs.bounded t (h.1 ▸ ht)
  valid c' hc' := by
    obtain ⟨-, g, claims, moves⟩ := h
    obtain ⟨c, hc, rfl⟩ := mem_map.mp (claims ▸ hc')
    exact (moves c hc).valid (hs.valid c hc)

end ClaimStore.RowsMove

/-! ## The updates -/

variable {tenantId executionToken : Uuid} {p : Claim → Bool} {bindingId : String}

theorem Claim.heldBy_iff {c : Claim} :
    c.heldBy tenantId bindingId executionToken ↔
      c.key = (tenantId, bindingId) ∧ c.executionState = .inProgress ∧
        c.executionToken = executionToken := by
  simp [heldBy, key, and_assoc]

theorem Claim.unstartedBy_iff {c : Claim} :
    c.unstartedBy tenantId bindingId executionToken ↔
      c.key = (tenantId, bindingId) ∧ c.executionState = .inProgress ∧
        c.executionToken = executionToken ∧ c.dispatched = false := by
  simp [unstartedBy, heldBy_iff, and_assoc]

theorem Claim.startedBy_iff {c : Claim} :
    c.startedBy tenantId bindingId executionToken ↔
      c.key = (tenantId, bindingId) ∧ c.executionState = .inProgress ∧
        c.executionToken = executionToken ∧ c.dispatched = true := by
  simp [startedBy, heldBy_iff, and_assoc]

section Updates

variable (now : Timestamp) (tenantId executionToken : Uuid) (bindingId : String)

theorem reclaimExpiredExecution_moves (lease : Timestamp) :
    s.RowsMove (reclaimExpiredExecution now tenantId bindingId executionToken lease s).2 := by
  unfold reclaimExpiredExecution
  simp only [apply_ite Prod.snd, ite_self]
  refine RowsMove.update fun c _ hp => ?_
  have fresh : c.dispatched = false := (of_decide_eq_true hp).2.2.2.1
  exact
    { identity := rfl
      fenced := fun h => absurd h (by simp [fresh])
      finished := fun h => h
      valid := fun h => h }

theorem markExecutionDispatched_moves :
    s.RowsMove (markExecutionDispatched now tenantId bindingId executionToken s).2 := by
  refine RowsMove.update fun c _ hp => ?_
  obtain ⟨-, inProgress, -, fresh⟩ := unstartedBy_iff.mp hp
  exact
    { identity := rfl
      fenced := fun h => absurd h (by simp [fresh])
      finished := fun h => h
      valid := fun h => by simpa [Valid, inProgress] using h }

theorem releaseExecution_moves :
    s.RowsMove (releaseExecution now tenantId bindingId executionToken s).2 :=
  RowsMove.update fun _ _ _ =>
    { identity := rfl, fenced := fun _ => ⟨rfl, rfl⟩, finished := id, valid := id }

theorem expireDispatchedExecution_moves :
    s.RowsMove (expireDispatchedExecution now tenantId bindingId executionToken s).2 := by
  refine RowsMove.update fun c _ hp => ?_
  obtain ⟨-, inProgress, -, sent⟩ := startedBy_iff.mp hp
  refine ⟨rfl, fun _ => ⟨rfl, rfl⟩, fun _ => by simp, fun valid => ?_⟩
  have : c.response = none := by
    simp only [Valid, inProgress] at valid
    exact valid.1
  exact ⟨this, sent, rfl⟩

theorem Claim.moves_expire {c : Claim} (h : c.executionState = .completed) : c.Moves c.expire := by
  refine ⟨rfl, fun _ => ⟨rfl, rfl⟩, fun _ => by simp [expire], fun valid => ?_⟩
  simp only [Valid, h] at valid
  exact ⟨rfl, valid.1, valid.2.1⟩

theorem expireCompletedResponses_moves : s.RowsMove (expireCompletedResponses now s).2 := by
  refine RowsMove.update fun c _ hp => ?_
  exact moves_expire (of_decide_eq_true hp).1

/-- The eviction meets only cached responses: a victim is named by its binding, which is the
key among the rows of the tenant. -/
theorem ClaimStore.evict_moves (maxEntries maxBytes : ℕ)
    (unique : (s.claims.map key).Nodup) :
    s.RowsMove (s.evict tenantId bindingId maxEntries maxBytes) := by
  refine RowsMove.update fun c hc hp => ?_
  obtain ⟨tenant, victim⟩ := of_decide_eq_true hp
  obtain ⟨v, hv, same⟩ := mem_map.mp victim
  obtain ⟨stored, ofTenant, completed⟩ :=
    mem_cached.mp (mem_ranked.mp (evicted_subset _ 0 0 hv))
  have : v = c := inj_on_of_nodup_map unique stored hc (by
    simp [key, ofTenant, tenant, same])
  exact moves_expire (this ▸ completed)

end Updates

/-! ## The transactions -/

section Transactions

theorem Completion.moves_finish (r : Completion) (now : Timestamp) {c : Claim}
    (met : r.finishes c) (fits : r.replayable) (status : 100 ≤ r.status ∧ r.status ≤ 599) :
    c.Moves
      { c with
        executionState := .completed, response := some r.response,
        completedAt := some now, leaseExpiresAt := now } := by
  have sent := (startedBy_iff.mp met).2.2.2
  refine ⟨rfl, fun _ => ⟨rfl, rfl⟩, fun _ => by simp, fun _ => ?_⟩
  refine ⟨sent, rfl, r.response, rfl, status.1, status.2, ?_, rfl⟩
  exact (of_decide_eq_true fits).2.2

theorem Completion.moves_discard (r : Completion) (now : Timestamp) {c : Claim}
    (met : r.finishes c) :
    c.Moves
      { c with
        executionState := .expired, response := none, completedAt := some now,
        leaseExpiresAt := now } := by
  have sent := (startedBy_iff.mp met).2.2.2
  exact ⟨rfl, fun _ => ⟨rfl, rfl⟩, fun _ => by simp, fun _ => ⟨rfl, sent, rfl⟩⟩

theorem completeExecutionWithQuota_cases {now : Timestamp} {r : Completion} {answer : Bool}
    (h : completeExecutionWithQuota now r s = (.ok answer, s')) :
    (s.affected r.finishes = 0 ∧ answer = false ∧ s' = s) ∨
    (r.replayable ∧ (100 ≤ r.status ∧ r.status ≤ 599) ∧ s.affected r.finishes ≠ 0 ∧
      s' = (s.update r.finishes fun c =>
        { c with
          executionState := .completed, response := some r.response,
          completedAt := some now, leaseExpiresAt := now }).evict r.tenantId r.bindingId
            r.maxEntries r.maxBytes) ∨
    (¬ r.replayable ∧ answer = decide (s.affected r.finishes = 1) ∧
      s' = s.update r.finishes fun c =>
        { c with
          executionState := .expired, response := none, completedAt := some now,
          leaseExpiresAt := now }) := by
  simp only [completeExecutionWithQuota, Tx.inv] at h
  obtain ⟨_, -, _, -, _, -, _, -, _, -,
    _, rfl, h⟩ := h
  split at h
  · rename_i fits
    split at h
    · simp_all
    · grind [Tx.bind_eq_ok, Tx.failIf_eq_ok, Tx.modify_eq_ok, Tx.pure_eq_ok]
  · grind [Tx.bind_eq_ok, Tx.modify_eq_ok, Tx.pure_eq_ok]

theorem completeExecutionWithQuota_moves {now : Timestamp} {r : Completion} {answer : Bool}
    (unique : (s.claims.map key).Nodup)
    (h : completeExecutionWithQuota now r s = (.ok answer, s')) : s.RowsMove s' := by
  rcases completeExecutionWithQuota_cases h with
    ⟨-, -, rfl⟩ | ⟨fits, status, -, rfl⟩ | ⟨-, -, rfl⟩
  · exact RowsMove.refl _
  · have finished := RowsMove.update (s := s) fun c _ met =>
      r.moves_finish now met fits status
    exact finished.trans
      (evict_moves _ _ _ _ (finished.map_key ▸ unique))
  · exact RowsMove.update fun c _ met => r.moves_discard now met

theorem changeCount_eq_ok {p : ClaimTenant → Bool} {change : ℤ} {failure : String} {u : Unit} :
    changeCount p change failure s = (.ok u, s') ↔
      (s.tenants.filter p).length = 1 ∧ s' = s.addToCount p change := by
  simp only [changeCount, Tx.inv, not_not]
  constructor
  · grind
  · grind

theorem bindForExecution_cases {r : BindRequest} {maxIdentities : ℕ} {answer : Claim × Bool}
    (h : bindForExecution r maxIdentities s = (.ok answer, s')) :
    s' = s ∨ ∃ t, s.tenant r.tenantId = some t ∧ s.find r.tenantId r.bindingId = none ∧
      t.responsesIdempotencyClaimCount < (min maxIdentities maxIdentitiesPerTenant : ℕ) ∧
      s' = { s with claims := s.claims ++ [r.claim] }.addToCount
        (fun t => t.id = r.tenantId) 1 := by
  simp only [bindForExecution, Tx.inv] at h
  obtain ⟨_, rfl, t, tenant, existing, absent, h⟩ := h
  cases existing with
  | some claim =>
    cases h
    exact .inl rfl
  | none =>
    simp only [insertClaim, Tx.inv, not_le] at h
    obtain ⟨_, below, inserted, s₁, ⟨_, rfl, h⟩, _, -, _, -, -, rfl⟩ := h
    rw [absent, if_neg (by simp)] at h
    simp only [Tx.inv, changeCount_eq_ok] at h
    obtain ⟨_, -, _, -, _, -, _, _, rfl, _, _, ⟨-, rfl⟩, -, rfl⟩ := h
    exact .inr ⟨t, tenant, absent, below, rfl⟩

theorem deleteUnstartedExecution_cases {tenantId executionToken : Uuid} {bindingId : String}
    {answer : Bool}
    (h : deleteUnstartedExecution tenantId bindingId executionToken s = (.ok answer, s')) :
    let p := unstartedBy tenantId bindingId executionToken
    (s' = s ∧ answer = false) ∨
    (s.affected p ≠ 1 ∧ answer = false ∧
      s' = { s with claims := s.claims.filter fun c => !p c }) ∨
    (s.affected p = 1 ∧
      s' = { s with claims := s.claims.filter fun c => !p c }.addToCount
        (fun t => t.id = tenantId ∧ 0 < t.responsesIdempotencyClaimCount) (-1)) := by
  simp only [deleteUnstartedExecution, Tx.inv] at h
  obtain ⟨tenant, -, h⟩ := h
  split at h
  · simp_all
  · simp only [Tx.inv] at h
    obtain ⟨deleted, rfl, _, _, rfl, h⟩ := h
    split at h
    · grind [Tx.bind_eq_ok, changeCount_eq_ok, Tx.pure_eq_ok]
    · simp_all

end Transactions

/-! ## One change of the store -/

/-- What one call may do: move rows, insert one row below the limit and count it, or delete one
row that was never dispatched and take it off the count. -/
inductive ClaimStore.Change (limit : ℕ) (s : ClaimStore) : ClaimStore → Prop
  | moved {s' : ClaimStore} (moves : s.RowsMove s') : Change limit s s'
  | inserted (c : Claim) (t : ClaimTenant) (tenant : s.tenant c.tenantId = some t)
      (absent : c.key ∉ s.claims.map key) (valid : c.Valid)
      (below : t.responsesIdempotencyClaimCount < (min limit maxIdentitiesPerTenant : ℕ)) :
      Change limit s
        ({ s with claims := s.claims ++ [c] }.addToCount (fun t => t.id = c.tenantId) 1)
  | deleted (p : Claim → Bool) (tenantId : Uuid)
      (fresh : ∀ c, p c → c.tenantId = tenantId ∧ c.dispatched = false)
      (one : s.affected p = 1) :
      Change limit s
        ({ s with claims := s.claims.filter fun c => !p c }.addToCount
          (fun t => t.id = tenantId ∧ 0 < t.responsesIdempotencyClaimCount) (-1))

theorem ClaimStore.affected_le_one (unique : (s.claims.map Claim.key).Nodup) {key : Uuid × String}
    (behind : ∀ c, p c → c.key = key) : s.affected p ≤ 1 := by
  rw [affected, ← length_map Claim.key]
  have all : ∀ k ∈ (s.claims.filter p).map Claim.key, k = key := by
    grind [mem_map.mp, mem_filter.mp]
  have nodup : ((s.claims.filter p).map Claim.key).Nodup :=
    unique.sublist (filter_sublist.map _)
  rw [eq_replicate_of_mem all] at nodup
  simpa using nodup_replicate.mp nodup

theorem ClaimStore.affected_eq_zero :
    s.affected p = 0 ↔ ∀ c ∈ s.claims, p c = false := by
  simp [affected, filter_eq_nil_iff]

theorem ClaimStore.update_of_affected_eq_zero {f : Claim → Claim} (none : s.affected p = 0) :
    s.update p f = s := by
  have : updateWhere p f s.claims = s.claims :=
    updateWhere_of_forall_eq fun c hc met => by
      simp [affected_eq_zero.mp none c hc] at met
  rw [update, this]

theorem ClaimStore.delete_of_affected_eq_zero (none : s.affected p = 0) :
    { s with claims := s.claims.filter fun c => !p c } = s := by
  have : s.claims.filter (fun c => !p c) = s.claims :=
    filter_eq_self.mpr fun c hc => by simp [affected_eq_zero.mp none c hc]
  rw [this]

theorem ClaimStore.mem_tenants_addToCount {p : ClaimTenant → Bool} {change : ℤ} {t' : ClaimTenant} :
    t' ∈ (s.addToCount p change).tenants ↔ ∃ t ∈ s.tenants, t'.id = t.id ∧
      t'.responsesIdempotencyClaimCount =
        t.responsesIdempotencyClaimCount + if p t then change else 0 := by
  simp only [addToCount, mem_updateWhere]
  constructor
  · grind
  · rintro ⟨t, ht, id, count⟩
    refine ⟨t, ht, ?_⟩
    obtain ⟨id', count'⟩ := t'
    obtain rfl : id' = t.id := id
    obtain rfl := count
    split <;> simp

theorem ClaimStore.tenants_addToCount_ids (p : ClaimTenant → Bool) (change : ℤ) :
    (s.addToCount p change).tenants.map ClaimTenant.id = s.tenants.map ClaimTenant.id :=
  map_updateWhere fun _ _ _ => rfl

theorem ClaimStore.rows_delete {tenantId : Uuid} (ofTenant : ∀ c, p c → c.tenantId = tenantId)
    (tenantId' : Uuid) :
    s.rows tenantId' =
      { s with claims := s.claims.filter fun c => !p c }.rows tenantId' +
        if tenantId' = tenantId then s.affected p else 0 := by
  simp only [rows, affected]
  rw [countP_eq_countP_filter_add s.claims _ p, add_comm]
  congr 1
  by_cases same : tenantId' = tenantId
  · simp_all
  · grind

namespace ClaimStore.Change

theorem kept (h : s.Change limit s') {c : Claim} (hc : c ∈ s.claims) (sent : c.dispatched) :
    ∃ c' ∈ s'.claims, c.Moves c' := by
  cases h with
  | moved moves => exact moves.mem hc
  | inserted => exact ⟨c, mem_append_left _ hc, Moves.refl c⟩
  | deleted p tenantId fresh one =>
    refine ⟨c, mem_filter.mpr ⟨hc, ?_⟩, Moves.refl c⟩
    by_contra met
    have := (fresh c (by simpa using met)).2
    simp [this] at sent

theorem sound (h : s.Change limit s') (hs : s.Sound limit) : s'.Sound limit := by
  cases h with
  | moved moves => exact moves.sound hs
  | inserted c t tenant absent valid below =>
    have rows : ∀ tenantId, { s with claims := s.claims ++ [c] }.rows tenantId =
        s.rows tenantId + if tenantId = c.tenantId then 1 else 0 := by
      intro tenantId
      simp [ClaimStore.rows, countP_append, eq_comm]
    refine ⟨?_, ?_, ?_, ?_, ?_⟩
    · change ((s.claims ++ [c]).map key).Nodup
      rw [map_append, nodup_append]
      refine ⟨hs.unique, nodup_singleton _, fun k hk k' hk' => ?_⟩
      rw [mem_singleton.mp hk']
      rintro rfl
      exact absent hk
    · rw [ClaimStore.tenants_addToCount_ids]
      exact hs.tenantUnique
    · intro t' ht'
      obtain ⟨t₀, ht₀, id, count⟩ := ClaimStore.mem_tenants_addToCount.mp ht'
      have := hs.counted t₀ ht₀
      have moved := rows t'.id
      change _ = ((ClaimStore.rows { s with claims := s.claims ++ [c] } t'.id : ℕ) : ℤ)
      rw [moved, count, this, id]
      split <;> simp_all
    · intro t' ht'
      obtain ⟨t₀, ht₀, id, count⟩ := ClaimStore.mem_tenants_addToCount.mp ht'
      have bound := hs.bounded t₀ ht₀
      rw [count]
      split
      · rename_i same
        -- the counter that was read is the one that is changed
        have : t₀ = t := inj_on_of_nodup_map hs.tenantUnique ht₀
          (mem_of_lookup tenant)
          ((of_decide_eq_true same).trans (key_of_lookup tenant).symm)
        subst this
        omega
      · omega
    · intro c' hc'
      rcases mem_append.mp hc' with hc' | hc'
      · exact hs.valid c' hc'
      · exact mem_singleton.mp hc' ▸ valid
  | deleted p tenantId fresh one =>
    have rows := fun t => ClaimStore.rows_delete (s := s) (fun c hc => (fresh c hc).1) t
    refine ⟨?_, ?_, ?_, ?_, ?_⟩
    · exact hs.unique.sublist (filter_sublist.map _)
    · rw [ClaimStore.tenants_addToCount_ids]
      exact hs.tenantUnique
    · intro t' ht'
      obtain ⟨t₀, ht₀, id, count⟩ := ClaimStore.mem_tenants_addToCount.mp ht'
      have counted := hs.counted t₀ ht₀
      have moved := rows t₀.id
      change _ = ((ClaimStore.rows
        { s with claims := s.claims.filter fun c => !p c } t'.id : ℕ) : ℤ)
      rw [count, id]
      -- a tenant with a row to delete has a positive counter
      by_cases same : t₀.id = tenantId
      · grind
      · grind
    · intro t' ht'
      obtain ⟨t₀, ht₀, id, count⟩ := ClaimStore.mem_tenants_addToCount.mp ht'
      have bound := hs.bounded t₀ ht₀
      rw [count]
      split <;> omega
    · exact fun c hc => hs.valid c (mem_of_mem_filter hc)

end ClaimStore.Change

/-! ## Calls -/

inductive ClaimCall where
  | bind (r : BindRequest) (maxIdentities : ℕ)
  | reclaim (tenantId : Uuid) (bindingId : String) (executionToken : Uuid)
      (leaseExpiresAt : Timestamp)
  | markDispatched (tenantId : Uuid) (bindingId : String) (executionToken : Uuid)
  | complete (r : Completion)
  | release (tenantId : Uuid) (bindingId : String) (executionToken : Uuid)
  | expireDispatched (tenantId : Uuid) (bindingId : String) (executionToken : Uuid)
  | deleteUnstarted (tenantId : Uuid) (bindingId : String) (executionToken : Uuid)
  | expireCompleted

inductive ClaimAnswer where
  | bound (claim : Claim) (inserted : Bool)
  | reclaimed (claim : Option Claim)
  | done (success : Bool)
  | dropped (rows : ℕ)
  | failed (e : DbError)

/-- The answer of a transaction that reports success. -/
def ClaimAnswer.ofExcept : Except DbError Bool → ClaimAnswer
  | .ok success => .done success
  | .error e => .failed e

def ClaimCall.perform (now : Timestamp) (s : ClaimStore) : ClaimCall → ClaimAnswer × ClaimStore
  | .bind r maxIdentities =>
    match atomically (bindForExecution r maxIdentities) s with
    | (.ok (claim, inserted), s') => (.bound claim inserted, s')
    | (.error e, s') => (.failed e, s')
  | .reclaim t b token lease =>
    ((reclaimExpiredExecution now t b token lease s).map .reclaimed id)
  | .markDispatched t b token => (markExecutionDispatched now t b token s).map .done id
  | .complete r => (atomically (completeExecutionWithQuota now r) s).map .ofExcept id
  | .release t b token => (releaseExecution now t b token s).map .done id
  | .expireDispatched t b token => (expireDispatchedExecution now t b token s).map .done id
  | .deleteUnstarted t b token =>
    (atomically (deleteUnstartedExecution t b token) s).map .ofExcept id
  | .expireCompleted => (expireCompletedResponses now s).map .dropped id

structure ClaimEvent where
  now : Timestamp
  call : ClaimCall

def ClaimEvent.answer (e : ClaimEvent) (s : ClaimStore) : ClaimAnswer := (e.call.perform e.now s).1

def ClaimEvent.step (e : ClaimEvent) (s : ClaimStore) : ClaimStore := (e.call.perform e.now s).2

def ClaimEvent.Configured (limit : ℕ) (e : ClaimEvent) : Prop :=
  ∀ r maxIdentities, e.call = .bind r maxIdentities → maxIdentities ≤ limit

theorem ClaimEvent.step_change (e : ClaimEvent) (configured : e.Configured limit)
    (hs : s.Sound limit) : s.Change limit (e.step s) := by
  obtain ⟨now, call⟩ := e
  have same : s.Change limit s := .moved (RowsMove.refl s)
  cases call with
  | bind r maxIdentities =>
    have h : (ClaimEvent.mk now (.bind r maxIdentities)).step s =
        (atomically (bindForExecution r maxIdentities) s).2 := by
      simp only [ClaimEvent.step, ClaimCall.perform]
      split <;> simp [*]
    rw [h]
    refine atomically_rel same fun answer s' hok => ?_
    rcases bindForExecution_cases hok with rfl | ⟨t, tenant, absent, below, rfl⟩
    · exact same
    · have := configured r maxIdentities rfl
      refine .inserted r.claim t tenant ?_ ⟨rfl, rfl⟩ (by omega)
      intro member
      exact absurd (lookup_isSome_iff.mpr member) (by
        simp [show lookup key r.claim.key s.claims = none from absent])
  | reclaim => exact .moved (reclaimExpiredExecution_moves ..)
  | markDispatched => exact .moved (markExecutionDispatched_moves ..)
  | complete r =>
    refine atomically_rel same fun answer s' hok => ?_
    exact .moved (completeExecutionWithQuota_moves hs.unique hok)
  | release => exact .moved (releaseExecution_moves ..)
  | expireDispatched => exact .moved (expireDispatchedExecution_moves ..)
  | deleteUnstarted t b token =>
    refine atomically_rel same fun answer s' hok => ?_
    have behind : ∀ c : Claim, c.unstartedBy t b token → c.key = (t, b) :=
      fun c met => (unstartedBy_iff.mp met).1
    rcases deleteUnstartedExecution_cases hok with ⟨rfl, -⟩ | ⟨notOne, -, rfl⟩ | ⟨one, rfl⟩
    · exact same
    · have atMost := affected_le_one hs.unique behind
      rw [delete_of_affected_eq_zero (by omega)]
      exact same
    · refine .deleted _ t (fun c met => ?_) one
      exact ⟨congrArg Prod.fst (behind c met), (unstartedBy_iff.mp met).2.2.2⟩
  | expireCompleted => exact .moved (expireCompletedResponses_moves ..)

end KeyCompute.Responses
