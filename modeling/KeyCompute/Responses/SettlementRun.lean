import KeyCompute.Responses.SettlementRows

/-!
# Settlements are never lost

In every state (`SettlementSystem.Sound`), rows agree with what their ids were issued for; a worker
keeps the billing request of its row, and its phase tells what has happened to the usage log; no two
workers of a row hold the same lease; a deletion that has located its resource is not looking at an
outbox.
-/

namespace KeyCompute.Responses

open SettlementSystem SettlementWorker List

open Relational (Tx atomically updateWhere runAll)

variable {issued : AffinityKey → Origin} {s : SettlementSystem} {now : Timestamp}

/-! ## The invariant -/

/-- What holds of a worker, given the usage logs, the replayed effects and the time. -/
structure WorkerOk (issued : AffinityKey → Origin) (logs replayed : List Uuid) (clock : Timestamp)
    (w : SettlementWorker) : Prop where
  billing : (issued w.key).billing = some w.settlement.billingRequest
  ledger : w.phase = .ledgered ∨ w.phase = .reconciled ∨ w.phase = .replayed →
    w.settlement.billingRequest ∈ logs
  effects : w.phase = .replayed → w.settlement.billingRequest ∈ replayed
  lease : w.lease ≤ clock + settlementLeaseTtl

structure InlineOk (logs replayed : List Uuid) (b : InlineBilling) : Prop where
  ledger : b.phase = .ledgered ∨ b.phase = .replayed ∨ b.phase = .finished →
    b.billingRequest ∈ logs
  effects : b.phase = .replayed ∨ b.phase = .finished → b.billingRequest ∈ replayed

def LeasesDiffer (a b : SettlementWorker) : Prop := a.key = b.key → a.lease ≠ b.lease

structure SettlementSystem.Sound (issued : AffinityKey → Origin) (s : SettlementSystem) : Prop where
  table : TableOk issued s.rows
  worker : ∀ w ∈ s.workers, WorkerOk issued s.usageLogs s.replayed s.clock w
  leases : s.workers.Pairwise LeasesDiffer
  inline : ∀ b ∈ s.inlines, InlineOk s.usageLogs s.replayed b
  located : ∀ d ∈ s.deletions, d.phase = .located → ∀ b, issued d.key ≠ .outbox b

variable {w : SettlementWorker} {key : AffinityKey} {i : ℕ} {r : ResponseAffinity}

theorem pairwise_set {α : Type} {R : α → α → Prop} (symm : ∀ a b, R a b → R b a) {l : List α}
    {b : α} (h : l.Pairwise R) (rest : ∀ j c, j ≠ i → l[j]? = some c → R b c) :
    (l.set i b).Pairwise R := by
  rw [pairwise_iff_getElem] at h ⊢
  intro j k hj hk lt
  rw [length_set] at hj hk
  simp only [getElem_set]
  by_cases hji : i = j
  · subst hji
    rw [if_pos rfl, if_neg (by omega)]
    exact rest k _ (by omega) (getElem?_eq_getElem hk)
  · rw [if_neg hji]
    split
    · exact symm _ _ (rest j _ (by omega) (getElem?_eq_getElem hj))
    · exact h j k hj hk lt

namespace SettlementSystem.Sound

theorem advance (hs : s.Sound issued) {rows : AffinityTable} (table : TableOk issued rows)
    (le : s.clock ≤ now) : { s with rows := rows, clock := now }.Sound issued where
  table := table
  worker w hw :=
    have ok := hs.worker w hw
    ⟨ok.billing, ok.ledger, ok.effects, ok.lease.trans (Int.add_le_add_right le _)⟩
  leases := hs.leases
  inline := hs.inline
  located := hs.located

theorem commit (hs : s.Sound issued) (b : Uuid) :
    { s with usageLogs := b :: s.usageLogs }.Sound issued where
  table := hs.table
  worker w hw :=
    have ok := hs.worker w hw
    ⟨ok.billing, fun h => mem_cons_of_mem _ (ok.ledger h), ok.effects, ok.lease⟩
  leases := hs.leases
  inline i hi :=
    ⟨fun h => mem_cons_of_mem _ ((hs.inline i hi).ledger h), (hs.inline i hi).effects⟩
  located := hs.located

theorem replay (hs : s.Sound issued) (b : Uuid) :
    { s with replayed := b :: s.replayed }.Sound issued where
  table := hs.table
  worker w hw :=
    have ok := hs.worker w hw
    ⟨ok.billing, ok.ledger, fun h => mem_cons_of_mem _ (ok.effects h), ok.lease⟩
  leases := hs.leases
  inline i hi :=
    ⟨(hs.inline i hi).ledger, fun h => mem_cons_of_mem _ ((hs.inline i hi).effects h)⟩
  located := hs.located

theorem setWorker (hs : s.Sound issued) {i : ℕ} {w w' : SettlementWorker}
    (found : s.workers[i]? = some w) (key : w'.key = w.key)
    (ok : WorkerOk issued s.usageLogs s.replayed s.clock w')
    (lease : w'.lease = w.lease ∨ ∀ v ∈ s.workers, v.lease < w'.lease) :
    (s.setWorker i w').Sound issued where
  table := hs.table
  worker v hv := by
    rcases List.mem_or_eq_of_mem_set hv with hv | rfl
    · exact hs.worker v hv
    · exact ok
  leases := by
    have symm : ∀ a b, LeasesDiffer a b → LeasesDiffer b a :=
      fun a b h same => (h same.symm).symm
    refine pairwise_set symm hs.leases fun j v hj hv same => ?_
    rcases lease with lease | later
    · -- the lease is the old one, which differs from that of every other worker
      rw [lease]
      obtain ⟨hi', rfl⟩ := List.getElem?_eq_some_iff.mp found
      obtain ⟨hj', rfl⟩ := List.getElem?_eq_some_iff.mp hv
      have pairwise := List.pairwise_iff_getElem.mp hs.leases
      rcases Nat.lt_or_gt_of_ne hj with lt | gt
      · exact (pairwise j i hj' hi' lt (same.symm.trans key)).symm
      · exact pairwise i j hi' hj' gt (key.symm.trans same)
    · exact (later v (List.mem_of_getElem? hv)).ne'
  inline := hs.inline
  located := hs.located

theorem setInline (hs : s.Sound issued) (i : ℕ) {b : InlineBilling}
    (ok : InlineOk s.usageLogs s.replayed b) : (s.setInline i b).Sound issued where
  table := hs.table
  worker := hs.worker
  leases := hs.leases
  inline c hc := by
    rcases mem_or_eq_of_mem_set hc with hc | rfl
    · exact hs.inline c hc
    · exact ok
  located := hs.located

theorem setDeletion (hs : s.Sound issued) (i : ℕ) {d : Deletion}
    (located : d.phase = .located → ∀ b, issued d.key ≠ .outbox b) :
    (s.setDeletion i d).Sound issued where
  table := hs.table
  worker := hs.worker
  leases := hs.leases
  inline := hs.inline
  located c hc := by
    rcases mem_or_eq_of_mem_set hc with hc | rfl
    · exact hs.located c hc
    · exact located

end SettlementSystem.Sound

/-! ## One step -/

/-- The action saves a row only under an id that was issued for what it saves. -/
def SettlementAction.Issued (issued : AffinityKey → Origin) : SettlementAction → Prop
  | .saveResponse target _ settlement _ _ =>
    issued target.key = .response settlement.billingRequest
  | .saveOutbox target settlement _ _ => issued target.key = .outbox settlement.billingRequest
  | .saveRoute target _ _ => ∀ b, issued target.key ≠ .outbox b
  | .saveWarmup target _ => issued target.key = .unbilled
  | _ => True

theorem WorkerOk.ended {logs replayed : List Uuid} {clock : Timestamp}
    (h : WorkerOk issued logs replayed clock w) :
    WorkerOk issued logs replayed clock { w with phase := .ended } :=
  ⟨h.billing, by simp, by simp, h.lease⟩

theorem SettlementSystem.Sound.endWorker (hs : s.Sound issued) (found : s.workers[i]? = some w) :
    (s.setWorker i { w with phase := .ended }).Sound issued :=
  hs.setWorker found rfl (hs.worker w (mem_of_getElem? found)).ended (.inl rfl)

theorem SettlementSystem.Sound.renew (hs : s.Sound issued) (tick : s.clock < now)
    (found : s.workers[i]? = some w) {next : WorkerPhase}
    (ledger : next = .ledgered ∨ next = .reconciled ∨ next = .replayed →
      w.settlement.billingRequest ∈ s.usageLogs)
    (effects : next = .replayed → w.settlement.billingRequest ∈ s.replayed) :
    { s.renew now i w next with clock := now }.Sound issued := by
  have ok := hs.worker w (mem_of_getElem? found)
  have renewed := hs.advance (renewClaimedSettlement_moves now w.key w.lease settlementLeaseTtl
    hs.table).1
    tick.le
  unfold SettlementSystem.renew
  dsimp only
  split
  · rename_i lease given
    have later : lease = now + settlementLeaseTtl := by
      unfold renewClaimedSettlement at given
      dsimp only at given
      split at given
      · exact (Option.some.inj given).symm
      · exact nomatch given
    subst later
    refine renewed.setWorker (w := w) found rfl ⟨ok.billing, ledger, effects, le_rfl⟩ (.inr ?_)
    intro v hv
    exact (hs.worker v hv).lease.trans_lt (Int.add_lt_add_right tick _)
  · exact renewed.endWorker (w := w) found

theorem workerStep_sound (hs : s.Sound issued) (tick : s.clock < now)
    (found : s.workers[i]? = some w) (action : WorkerAction) :
    { s.workerStep now i w action with clock := now }.Sound issued := by
  have ok := hs.worker w (mem_of_getElem? found)
  have idle : { s with clock := now }.Sound issued := hs.advance hs.table tick.le
  have ok' := idle.worker w (mem_of_getElem? found)
  cases action <;> simp only [workerStep]
  case restore =>
    split
    · refine idle.setWorker (w := w) found rfl ⟨ok.billing, ?_, ?_, ok'.lease⟩ (.inl rfl)
      · split <;> simp
      · split <;> simp
    · exact idle
  case fence =>
    split
    · exact hs.renew tick found (by simp) (by simp)
    · exact idle
  case maintain =>
    split
    · exact idle
    · exact hs.renew tick found ok.ledger ok.effects
  case relinquish =>
    split
    · exact idle
    · have moved := hs.advance (relinquishClaimedSettlement_moves now w.key w.lease hs.table).1
        tick.le
      exact moved.endWorker (w := w) found
  case findLedger =>
    split
    · rename_i turn
      exact idle.setWorker (w := w) found rfl
        ⟨ok.billing, fun _ => turn.2, by simp, ok'.lease⟩ (.inl rfl)
    · exact idle
  case conclude status =>
    split
    · exact idle.setWorker (w := w) found rfl ⟨ok.billing, ok.ledger, ok.effects, ok'.lease⟩
        (.inl rfl)
    · exact idle
  case finalize =>
    split
    · exact (idle.commit w.settlement.billingRequest).setWorker (w := w) found rfl
        ⟨ok.billing, fun _ => mem_cons_self, by simp, ok'.lease⟩ (.inl rfl)
    · exact idle
  case reconcile =>
    split
    · rename_i turn
      exact hs.renew tick found (fun _ => ok.ledger (.inl turn)) (by simp)
    · exact idle
  case replay =>
    split
    · rename_i turn
      exact (idle.replay w.settlement.billingRequest).setWorker (w := w) found rfl
        ⟨ok.billing, fun _ => ok.ledger (.inr (.inl turn)), fun _ => mem_cons_self,
          ok'.lease⟩ (.inl rfl)
    · exact idle
  case reschedule nextPollAt =>
    split
    · have billing : (issued w.key).billing =
          some ({ w.settlement with attempt := w.settlement.attempt + 1 } :
            Settlement).billingRequest := ok.billing
      have moved := hs.advance
        (rescheduleClaimedSettlement_moves now nextPollAt w.lease billing hs.table).1 tick.le
      exact moved.endWorker (w := w) found
    · exact idle
  case clear =>
    split
    · have moved := hs.advance
        (clearSettlements_spec now (ResponseAffinity.leasedAs w.key w.lease) hs.table).1 tick.le
      exact moved.endWorker (w := w) found
    · exact idle
  case crash => exact idle.endWorker (w := w) found

theorem inlineStep_sound (hs : s.Sound issued) (tick : s.clock < now) {b : InlineBilling}
    (found : s.inlines[i]? = some b) (action : InlineAction) :
    { s.inlineStep now i b action with clock := now }.Sound issued := by
  have ok := hs.inline b (mem_of_getElem? found)
  have idle : { s with clock := now }.Sound issued := hs.advance hs.table tick.le
  cases action <;> simp only [inlineStep]
  case finalize =>
    split
    · exact (idle.commit b.billingRequest).setInline i ⟨fun _ => mem_cons_self, by simp⟩
    · exact idle
  case replay =>
    split
    · rename_i turn
      exact (idle.replay b.billingRequest).setInline i
        ⟨fun _ => ok.ledger (.inl turn), fun _ => mem_cons_self⟩
    · exact idle
  case record =>
    split
    · rename_i turn
      exact idle.setInline i
        ⟨fun _ => ok.ledger (.inr (.inl turn)), fun _ => ok.effects (.inl turn)⟩
    · exact idle
  case acknowledge =>
    split
    · have moved := hs.advance
        (clearSettlements_spec now (ResponseAffinity.settles b.tenantId b.billingRequest)
          hs.table).1 tick.le
      exact moved.setInline i ⟨by simp, by simp⟩
    · exact idle
  case crash => exact idle.setInline i ⟨by simp, by simp⟩

/-- An outbox is hidden, so a deletion does not find it. -/
theorem located_not_outbox (table : TableOk issued s.rows) {tenantId : Uuid} {userId : Option Uuid}
    {responseId : String} (found : findActive now tenantId userId responseId s.rows = some r)
    (b : Uuid) :
    issued (tenantId, responseId) ≠ .outbox b := by
  intro origin
  have hr := mem_of_find?_eq_some found
  have active := find?_some found
  simp only [Bool.and_eq_true, Option.isNone_iff_eq_none] at active
  have key := ResponseAffinity.key_of_isResource active.1.1
  have hidden := (table.row r hr).hidden b (key ▸ origin)
  simp [active.1.2] at hidden

theorem deletionStep_sound (hs : s.Sound issued) (tick : s.clock < now) {d : Deletion}
    (found : s.deletions[i]? = some d) (action : DeletionAction) :
    { s.deletionStep now i d action with clock := now }.Sound issued := by
  have idle : { s with clock := now }.Sound issued := hs.advance hs.table tick.le
  cases action <;> simp only [deletionStep]
  case check =>
    split
    · refine idle.setDeletion i fun located => ?_
      dsimp only at located
      split at located <;> exact nomatch located
    · exact idle
  case locate =>
    split
    · refine idle.setDeletion i fun located => ?_
      dsimp only at located
      split at located
      · rename_i some
        obtain ⟨r, hr, -⟩ := (Option.any_eq_true _ _).mp some
        exact located_not_outbox hs.table hr
      · exact nomatch located
    · exact idle
  case remove =>
    split
    · rename_i turn
      have notOutbox := hs.located d (mem_of_getElem? found) turn
      have moved := hs.advance
        (deleteRoutePreservingSettlement_moves now d.userId notOutbox hs.table).1 tick.le
      exact moved.setDeletion i fun located => nomatch located
    · exact idle
  case crash => exact idle.setDeletion i fun located => nomatch located

theorem SettlementWorker.ofClaim_eq (h : ofClaim r = some w) :
    w.affinity = r ∧ r.settlement = some w.settlement ∧ r.settlementLeaseUntil = some w.lease ∧
      w.phase = .claimed := by
  unfold ofClaim at h
  split at h
  · cases h
    exact ⟨rfl, ‹_›, ‹_›, rfl⟩
  · exact nomatch h

theorem lease_of_claimed {c : ClaimRequest} {rows : AffinityTable}
    (h : r ∈ (claimDueSettlementsBefore now c rows).1) :
    r ∈ (claimDueSettlementsBefore now c rows).2 ∧
      r.settlementLeaseUntil = some (now + c.leaseDuration) := by
  obtain ⟨member, taken⟩ := mem_filter.mp h
  refine ⟨member, ?_⟩
  obtain ⟨r₀, -, rfl⟩ := Relational.mem_updateWhere.mp member
  split
  · rfl
  · grind

theorem claim_sound (hs : s.Sound issued) (tick : s.clock < now) {c : ClaimRequest}
    (ttl : c.leaseDuration = settlementLeaseTtl) :
    { s with
      rows := (claimDueSettlementsBefore now c s.rows).2
      workers := s.workers ++
        (claimDueSettlementsBefore now c s.rows).1.filterMap ofClaim
      clock := now }.Sound issued := by
  have table := (claimDueSettlementsBefore_moves now c hs.table).1
  have moved := hs.advance table tick.le
  -- a new worker has the row's settlement and a lease later than all before
  have fresh : ∀ w ∈ (claimDueSettlementsBefore now c s.rows).1.filterMap ofClaim,
      (issued w.key).billing = some w.settlement.billingRequest ∧
        w.lease = now + settlementLeaseTtl ∧ w.phase = .claimed := by
    intro w hw
    obtain ⟨r, hr, made⟩ := mem_filterMap.mp hw
    obtain ⟨rfl, settlement, lease, phase⟩ := ofClaim_eq made
    obtain ⟨member, granted⟩ := lease_of_claimed hr
    refine ⟨(table.row _ member).billing _ settlement, ?_, phase⟩
    rw [granted, ttl] at lease
    exact (Option.some.inj lease).symm
  exact
    { table := table
      worker := by
        intro w hw
        rcases mem_append.mp hw with hw | hw
        · exact moved.worker w hw
        · obtain ⟨billing, lease, phase⟩ := fresh w hw
          exact ⟨billing, by simp [phase], by simp [phase], lease.le⟩
      leases := by
        refine pairwise_append.mpr ⟨hs.leases, ?_, fun a ha b hb _ => ?_⟩
        · -- one row is claimed at most once
          have keys : ((claimDueSettlementsBefore now c s.rows).1).Pairwise
              fun a b => a.key ≠ b.key := by
            refine Pairwise.sublist filter_sublist ?_
            exact pairwise_map.mp table.unique
          refine pairwise_filterMap.mpr (keys.imp fun differ w hw w' hw' same => ?_)
          obtain ⟨rfl, -⟩ := ofClaim_eq hw
          obtain ⟨rfl, -⟩ := ofClaim_eq hw'
          exact absurd same differ
        · rw [(fresh b hb).2.1]
          exact ((hs.worker a ha).lease.trans_lt (Int.add_lt_add_right tick _)).ne
      inline := hs.inline
      located := hs.located }

/-- The saves, claims and deletions that are one transaction, not a turn of a party. -/
def SettlementAction.isTransaction : SettlementAction → Bool
  | .worker .. | .inline .. | .deletion .. => false
  | _ => true

theorem perform_moves {action : SettlementAction} (origin : action.Issued issued)
    (alone : action.isTransaction) :
    TableMoves issued s.rows (s.perform now action).rows := by
  cases action with
  | saveResponse target accountId settlement nextPollAt hiddenAt =>
    refine onRows_moves fun _ _ h => ?_
    exact saveResponseAffinity_moves (t := { target with accountId := some accountId }) rfl origin h
  | saveOutbox target settlement nextPollAt hiddenAt =>
    have origin : issued target.key = .outbox settlement.billingRequest := origin
    refine onRows_moves fun _ _ h => ?_
    exact upsertRouteWithSettlementVisibility_moves (by rw [origin]; rfl)
      (fun b hb => absurd (origin.symm.trans hb) (by simp)) (fun _ _ => rfl) h
  | saveRoute target accountId kind =>
    refine onRows_moves fun _ _ h => ?_
    exact saveRouteAffinity_moves (t := { target with accountId := some accountId }) rfl origin h
  | saveWarmup target state => exact onRows_moves fun _ _ h => upsertLocal_moves origin h
  | claim limit dueBefore after locked => exact claimDueSettlementsBefore_moves now _
  | tombstoneNative tenantId userId responseId accountId kind =>
    exact tombstoneNativeResource_moves now tenantId userId responseId accountId kind
  | deleteExpired => exact deleteExpired_moves now
  | deleteAccountRoutes accountId => exact deleteSettledAccountRoutes_moves accountId
  | beginInline | beginDeletion => exact TableMoves.refl s.rows
  | worker | inline | deletion => exact nomatch alone

theorem SettlementEvent.step_sound (e : SettlementEvent) (hs : s.Sound issued)
    (tick : s.clock < e.now) (origin : e.action.Issued issued) : (e.step s).Sound issued := by
  obtain ⟨now, action⟩ := e
  have idle : { s with clock := now }.Sound issued := hs.advance hs.table tick.le
  have moved : action.isTransaction → TableOk issued (s.perform now action).rows :=
    fun alone => (perform_moves origin alone hs.table).1
  cases action with
  | saveResponse | saveOutbox | saveRoute | saveWarmup | tombstoneNative | deleteExpired
  | deleteAccountRoutes =>
    exact hs.advance (moved rfl) tick.le
  | claim limit dueBefore after locked => exact claim_sound hs tick rfl
  | worker i action =>
    change { s.perform now (.worker i action) with clock := now }.Sound issued
    simp only [perform]
    split
    · exact workerStep_sound hs tick ‹_› action
    · exact idle
  | beginInline tenantId billingRequest =>
    refine ⟨idle.table, idle.worker, idle.leases, fun b hb => ?_, idle.located⟩
    rcases mem_append.mp hb with hb | hb
    · exact idle.inline b hb
    · rw [mem_singleton.mp hb]
      exact ⟨by simp, by simp⟩
  | inline i action =>
    change { s.perform now (.inline i action) with clock := now }.Sound issued
    simp only [perform]
    split
    · exact inlineStep_sound hs tick ‹_› action
    · exact idle
  | beginDeletion tenantId userId responseId =>
    refine ⟨idle.table, idle.worker, idle.leases, idle.inline, fun d hd => ?_⟩
    rcases mem_append.mp hd with hd | hd
    · exact idle.located d hd
    · grind
  | deletion i action =>
    change { s.perform now (.deletion i action) with clock := now }.Sound issued
    simp only [perform]
    split
    · exact deletionStep_sound hs tick ‹_› action
    · exact idle

/-! ## How a settlement leaves its row -/

/-- The worker with the current lease of the row clears it, after the usage log was committed and
its effects were replayed. -/
def ClearedByWorker (e : SettlementEvent) (s : SettlementSystem) (key : AffinityKey) (b : Uuid) :
    Prop :=
  ∃ i w, e.action = .worker i .clear ∧ s.workers[i]? = some w ∧ w.key = key ∧
    w.settlement.billingRequest = b ∧ (∃ r ∈ s.rows, r.leasedAs key w.lease) ∧
    w.phase = .replayed ∧ b ∈ s.usageLogs ∧ b ∈ s.replayed

/-- Inline billing that is finished acknowledges its outbox. -/
def ClearedInline (e : SettlementEvent) (s : SettlementSystem) (key : AffinityKey) (b : Uuid) :
    Prop :=
  ∃ i inline, e.action = .inline i .acknowledge ∧ s.inlines[i]? = some inline ∧
    inline.tenantId = key.1 ∧ inline.billingRequest = b ∧ inline.phase = .finished ∧
    b ∈ s.usageLogs ∧ b ∈ s.replayed

theorem workerStep_pending (hs : s.Sound issued) (found : s.workers[i]? = some w)
    (action : WorkerAction) {b : Uuid} (pending : Pending s.rows key b) :
    Pending (s.workerStep now i w action).rows key b ∨
      ClearedByWorker ⟨now, .worker i action⟩ s key b := by
  have ok := hs.worker w (mem_of_getElem? found)
  have renewed : ∀ next, Pending (s.renew now i w next).rows key b := by
    intro next
    have moved := (renewClaimedSettlement_moves now w.key w.lease settlementLeaseTtl
      hs.table).2 key b pending
    unfold renew
    dsimp only
    split <;> exact moved
  cases action <;> simp only [workerStep]
  case fence => split <;> first | exact .inl (renewed _) | exact .inl pending
  case maintain => split <;> first | exact .inl pending | exact .inl (renewed _)
  case reconcile => split <;> first | exact .inl (renewed _) | exact .inl pending
  case relinquish =>
    split
    · exact .inl pending
    · exact .inl ((relinquishClaimedSettlement_moves now w.key w.lease hs.table).2 key b pending)
  case reschedule nextPollAt =>
    split
    · have billing : (issued w.key).billing =
          some ({ w.settlement with attempt := w.settlement.attempt + 1 } :
            Settlement).billingRequest := ok.billing
      exact .inl ((rescheduleClaimedSettlement_moves now nextPollAt w.lease billing
        hs.table).2 key b pending)
    · exact .inl pending
  case clear =>
    split
    · rename_i turn
      rcases (clearSettlements_spec now (ResponseAffinity.leasedAs w.key w.lease)
        hs.table).2 key b pending with kept | ⟨r, hr, rfl, leased, st, hst, rfl⟩
      · exact .inl kept
      · have same : r.key = w.key := (of_decide_eq_true leased).1
        have billing : w.settlement.billingRequest = st.billingRequest := by
          have := (hs.table.row r hr).billing st hst
          rw [same, ok.billing] at this
          exact Option.some.inj this
        refine .inr ⟨i, w, rfl, found, same.symm, billing, ⟨r, hr, same ▸ leased⟩, turn, ?_, ?_⟩
        · exact billing ▸ ok.ledger (.inr (.inr turn))
        · exact billing ▸ ok.effects turn
    · exact .inl pending
  all_goals
    try split
    all_goals exact .inl pending

theorem inlineStep_pending (hs : s.Sound issued) {inline : InlineBilling}
    (found : s.inlines[i]? = some inline) (action : InlineAction) {b : Uuid}
    (pending : Pending s.rows key b) :
    Pending (s.inlineStep now i inline action).rows key b ∨
      ClearedInline ⟨now, .inline i action⟩ s key b := by
  have ok := hs.inline inline (mem_of_getElem? found)
  cases action <;> simp only [inlineStep]
  case acknowledge =>
    split
    · rename_i turn
      rcases (clearSettlements_spec now
        (ResponseAffinity.settles inline.tenantId inline.billingRequest)
        hs.table).2 key b pending with kept | ⟨r, hr, rfl, selected, st, hst, rfl⟩
      · exact .inl kept
      · simp only [ResponseAffinity.settles, hst, Option.any_some, Bool.and_eq_true,
          decide_eq_true_eq] at selected
        obtain ⟨tenant, billing⟩ := selected
        refine .inr ⟨i, inline, rfl, found, tenant.symm, billing.symm, turn, ?_, ?_⟩
        · exact billing ▸ ok.ledger (.inr (.inr turn))
        · exact billing ▸ ok.effects (.inr turn)
    · exact .inl pending
  all_goals
    try split
    all_goals exact .inl pending

theorem deletionStep_pending (hs : s.Sound issued) {d : Deletion} (found : s.deletions[i]? = some d)
    (action : DeletionAction) {b : Uuid} (pending : Pending s.rows key b) :
    Pending (s.deletionStep now i d action).rows key b := by
  cases action <;> simp only [deletionStep]
  case remove =>
    split
    · rename_i turn
      have notOutbox := hs.located d (mem_of_getElem? found) turn
      exact (deleteRoutePreservingSettlement_moves now d.userId notOutbox hs.table).2 key b pending
    · exact pending
  all_goals
    try split
    all_goals exact pending

theorem SettlementEvent.step_pending (e : SettlementEvent) (hs : s.Sound issued)
    (origin : e.action.Issued issued) {b : Uuid} (pending : Pending s.rows key b) :
    Pending (e.step s).rows key b ∨ ClearedByWorker e s key b ∨ ClearedInline e s key b := by
  obtain ⟨now, action⟩ := e
  change Pending (s.perform now action).rows key b ∨ _
  have moved : action.isTransaction → Pending (s.perform now action).rows key b :=
    fun alone => (perform_moves origin alone hs.table).2 key b pending
  cases action with
  | worker i action =>
    simp only [perform]
    split
    · rcases workerStep_pending hs ‹_› action pending with kept | cleared
      · exact .inl kept
      · exact .inr (.inl cleared)
    · exact .inl pending
  | inline i action =>
    simp only [perform]
    split
    · rcases inlineStep_pending hs ‹_› action pending with kept | cleared
      · exact .inl kept
      · exact .inr (.inr cleared)
    · exact .inl pending
  | deletion i action =>
    simp only [perform]
    split
    · exact .inl (deletionStep_pending hs ‹_› action pending)
    · exact .inl pending
  | _ => exact .inl (moved rfl)

/-! ## Stale workers and concurrent ones -/

theorem workerStep_of_stale (action : WorkerAction)
    (stale : ∀ r ∈ s.rows, r.leasedAs w.key w.lease = false) :
    (s.workerStep now i w action).rows = s.rows := by
  have unmet : ∀ (p : ResponseAffinity → Bool) (f : ResponseAffinity → ResponseAffinity),
      (∀ r, p r → r.leasedAs w.key w.lease) → updateWhere p f s.rows = s.rows := by
    grind [Relational.updateWhere_of_forall_eq]
  have renewed : ∀ next, (s.renew now i w next).rows = s.rows := by
    intro next
    have same : (renewClaimedSettlement now w.key w.lease settlementLeaseTtl s.rows).2 = s.rows :=
      unmet _ _ fun r met => (Bool.and_eq_true _ _ ▸ met).1
    unfold renew
    dsimp only
    split <;> exact same
  cases action <;> simp only [workerStep]
  case fence => split <;> first | exact renewed _ | rfl
  case maintain => split <;> first | rfl | exact renewed _
  case reconcile => split <;> first | exact renewed _ | rfl
  case relinquish =>
    split
    · rfl
    · exact unmet _ _ fun _ => id
  case reschedule nextPollAt =>
    split
    · change rescheduleClaimedSettlement now _ _ _ _ s.rows = _
      unfold rescheduleClaimedSettlement
      split
      · exact unmet _ _ fun _ => id
      · rfl
    · rfl
  case clear =>
    split
    · change clearSettlements now _ s.rows = _
      have kept : s.rows.filter (fun r => !(r.leasedAs w.key w.lease && r.deletedAt.isSome)) =
          s.rows := filter_eq_self.mpr fun r hr => by simp [stale r hr]
      rw [clearSettlements, kept]
      exact unmet _ _ fun r met => (Bool.and_eq_true _ _ ▸ met).1
    · rfl
  all_goals
    try split
    all_goals rfl

def SettlementSystem.OneHolder (s : SettlementSystem) : Prop :=
  ∀ r ∈ s.rows, ∀ (i j : ℕ) (wi wj : SettlementWorker),
    s.workers[i]? = some wi → s.workers[j]? = some wj →
    r.leasedAs wi.key wi.lease → r.leasedAs wj.key wj.lease → i = j

theorem SettlementSystem.Sound.oneHolder (hs : s.Sound issued) : s.OneHolder := by
  intro r _ i j wi wj hi hj holdsI holdsJ
  obtain ⟨keyI, -, leaseI⟩ := of_decide_eq_true holdsI
  obtain ⟨keyJ, -, leaseJ⟩ := of_decide_eq_true holdsJ
  have key : wi.key = wj.key := keyI.symm.trans keyJ
  have lease : wi.lease = wj.lease := Option.some.inj (leaseI.symm.trans leaseJ)
  have differ := List.pairwise_iff_getElem.mp hs.leases
  obtain ⟨hi', rfl⟩ := List.getElem?_eq_some_iff.mp hi
  obtain ⟨hj', rfl⟩ := List.getElem?_eq_some_iff.mp hj
  by_contra ne
  rcases Nat.lt_or_gt_of_ne ne with lt | gt
  · exact differ i j hi' hj' lt key lease
  · exact differ j i hj' hi' gt key.symm lease.symm

/-! ## Whole runs -/

def Ticking : Timestamp → List SettlementEvent → Prop
  | _, [] => True
  | t, e :: rest => t < e.now ∧ Ticking e.now rest

def SettlementSystem.after (s : SettlementSystem) (run : List SettlementEvent) : SettlementSystem :=
  runAll SettlementEvent.step run s

theorem SettlementSystem.Sound.after :
    ∀ (run : List SettlementEvent) {s : SettlementSystem}, s.Sound issued → Ticking s.clock run →
      (∀ e ∈ run, e.action.Issued issued) → (s.after run).Sound issued := by
  intro run
  induction run with
  | nil => exact fun h _ _ => h
  | cons e rest ih =>
    intro s hs ticking origins
    exact ih (e.step_sound hs ticking.1 (origins e mem_cons_self)) ticking.2
      fun e' he' => origins e' (mem_cons_of_mem _ he')

theorem Ticking.left : ∀ (earlier : List SettlementEvent) {later : List SettlementEvent}
    {t : Timestamp}, Ticking t (earlier ++ later) → Ticking t earlier := by
  intro earlier
  induction earlier with
  | nil => exact fun _ => trivial
  | cons e rest ih => exact fun h => ⟨h.1, ih h.2⟩

/-- **A durable settlement is never lost.**  In every run from a sound system, under a clock that
moves forward and with ids that are issued for one request each, and for every step of it: a
pending settlement stays pending in its row unless it is cleared by the worker with the row's
current lease after the usage log and its effects, or by finished inline billing; a worker
whose lease is not the current one changes no row; and at most one worker holds the current
lease of a row. -/
theorem settlement_kept_until_billed (issued : AffinityKey → Origin) (s : SettlementSystem)
    (hs : s.Sound issued) (run : List SettlementEvent) (ticking : Ticking s.clock run)
    (origins : ∀ e ∈ run, e.action.Issued issued) (earlier : List SettlementEvent)
    (e : SettlementEvent) (later : List SettlementEvent) (hrun : run = earlier ++ e :: later) :
    (∀ key b, Pending (s.after earlier).rows key b →
      Pending (e.step (s.after earlier)).rows key b ∨
        ClearedByWorker e (s.after earlier) key b ∨ ClearedInline e (s.after earlier) key b) ∧
      (∀ i w action, e.action = .worker i action → (s.after earlier).workers[i]? = some w →
        (∀ r ∈ (s.after earlier).rows, r.leasedAs w.key w.lease = false) →
          (e.step (s.after earlier)).rows = (s.after earlier).rows) ∧
      (s.after earlier).OneHolder ∧ (s.after run).OneHolder := by
  subst hrun
  have before : (s.after earlier).Sound issued := hs.after earlier (ticking.left earlier)
    fun e' he' => origins e' (mem_append_left _ he')
  refine ⟨fun key b pending => ?_, ?_, before.oneHolder,
    (hs.after _ ticking origins).oneHolder⟩
  · exact e.step_pending before (origins e (by simp)) pending
  · intro i w action turn found stale
    obtain ⟨now, _⟩ := e
    obtain rfl := turn
    change ((s.after earlier).perform now (.worker i action)).rows = _
    simp only [perform, found]
    exact workerStep_of_stale action stale

def SettlementSystem.initial : SettlementSystem where
  rows := []
  workers := []
  inlines := []
  deletions := []
  usageLogs := []
  replayed := []
  clock := 0

theorem SettlementSystem.initial_sound : initial.Sound issued where
  table := ⟨nodup_nil, fun _ h => absurd h not_mem_nil⟩
  worker _ h := absurd h not_mem_nil
  leases := Pairwise.nil
  inline _ h := absurd h not_mem_nil
  located _ h := absurd h not_mem_nil

def sampleSettlement : Settlement where
  requestId := 7
  billingRequestId := none
  tenantId := 1
  provider := "openai"
  accountId := 4
  terminalStatus := none
  attempt := 0

/-- A stored response is saved, deleted by its user while its settlement is pending, and settled
by a worker. -/
def sampleSettlementRun : List SettlementEvent :=
  [⟨1, .beginDeletion 1 2 "resp_a"⟩, ⟨2, .deletion 0 .check⟩,
    ⟨3, .saveResponse ⟨1, some 2, "resp_a", "openai", none, none, 900⟩ 4 sampleSettlement 3 none⟩,
    ⟨4, .deletion 0 .locate⟩, ⟨5, .deletion 0 .remove⟩, ⟨7, .claim 8 6 none []⟩,
    ⟨8, .worker 0 .restore⟩, ⟨9, .worker 0 .fence⟩, ⟨10, .worker 0 (.conclude "success")⟩,
    ⟨11, .worker 0 .finalize⟩, ⟨12, .worker 0 .reconcile⟩, ⟨13, .worker 0 .replay⟩,
    ⟨14, .worker 0 .clear⟩]

/-- The rule at the last step of the sample run: the settlement is there before it, and the
worker with the current lease clears it. -/
theorem settlement_kept_until_billed_sampleSettlementRun :
    (initial.after (sampleSettlementRun.take 12)).rows.map
        (fun r => r.settlement.map Settlement.billingRequest) = [some 7] ∧
      (initial.after sampleSettlementRun).rows.length = 0 ∧
      (initial.after sampleSettlementRun).OneHolder := by
  refine ⟨by decide +kernel, by decide +kernel, ?_⟩
  refine (settlement_kept_until_billed (fun _ => .response 7) initial
    initial_sound sampleSettlementRun ?_ ?_ (sampleSettlementRun.take 12) _ []
    rfl).2.2.2
  · simp only [sampleSettlementRun, Ticking, initial]
    decide
  · intro e he
    simp only [sampleSettlementRun, mem_cons, not_mem_nil, or_false] at he
    rcases he with rfl | rfl | rfl | rfl | rfl | rfl | rfl | rfl | rfl | rfl | rfl | rfl | rfl <;>
      trivial

end KeyCompute.Responses
