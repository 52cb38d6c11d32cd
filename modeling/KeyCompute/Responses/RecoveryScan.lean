import KeyCompute.Relational.Keyset
import KeyCompute.Responses.Affinity

/-!
# The token recovery scan at startup

A starting replica reads every durable settlement page by page, in the order of tenant and response
id, to rebuild the token reservations of requests under way (`restore_durable_tpm_before_serving`).

The scan reads only rows with `updated_at` up to the cutoff it took at its start, and every lease
operation of another replica moves `updated_at` past it.  So a row that is claimed before the scan
comes to it is left out (`recovery_misses_claimed`); a row that is spared until then is returned
exactly once (`recovery_visits_spared`).
-/

namespace KeyCompute.Responses

open Relational (updateWhere runAll Walk)

/-! ## The scan -/

/-- The order of the scan: `ORDER BY tenant_id, response_id`. -/
def scanKey (key : AffinityKey) : ℕ ×ₗ String := toLex (key.1.bits.toNat, key.2)

theorem scanKey_injective : Function.Injective scanKey := by
  rintro ⟨⟨a⟩, x⟩ ⟨⟨b⟩, y⟩ h
  obtain ⟨bits, text⟩ := Prod.mk.inj (toLex.injective h)
  have bits : a = b := BitVec.eq_of_toNat_eq bits
  have text : x = y := text
  rw [bits, text]

def ResponseAffinity.scanOrder (r : ResponseAffinity) : ℕ ×ₗ String := scanKey r.key

/-- The rows the scan reads: `settlement IS NOT NULL AND updated_at <= cutoff`. -/
def recoverable (cutoff : Timestamp) (rows : AffinityTable) : AffinityTable :=
  rows.filter fun r => r.settlement.isSome && decide (r.updatedAt ≤ cutoff)

/-- `scan_settlements_for_tpm_recovery`, with the loop of `restore_durable_tpm_before_serving`
around it: one more page. -/
def scanPage (limit : ℕ) (cutoff : Timestamp) (rows : AffinityTable) (scan : Walk (ℕ ×ₗ String)) :
    Walk (ℕ ×ₗ String) :=
  scan.visit ResponseAffinity.scanOrder limit (recoverable cutoff rows)

/-! ## Other replicas -/

inductive LeaseCall where
  | claim (request : ClaimRequest)
  | renew (key : AffinityKey) (expected duration : Timestamp)
  | relinquish (key : AffinityKey) (expected : Timestamp)
  | reschedule (key : AffinityKey) (settlement : Settlement) (nextPollAt expected : Timestamp)

def LeaseCall.perform (now : Timestamp) (rows : AffinityTable) : LeaseCall → AffinityTable
  | .claim request => (claimDueSettlementsBefore now request rows).2
  | .renew key expected duration => (renewClaimedSettlement now key expected duration rows).2
  | .relinquish key expected => relinquishClaimedSettlement now key expected rows
  | .reschedule key settlement nextPollAt expected =>
    rescheduleClaimedSettlement now key settlement nextPollAt expected rows

/-- The operation writes the row of `key`. -/
def LeaseCall.touches (now : Timestamp) (rows : AffinityTable) (key : AffinityKey) :
    LeaseCall → Bool
  | .claim request => (request.taken now rows).contains key
  | .renew k expected _ => rows.any fun r => r.key = key && r.leasedAs k expected &&
      decide (now < expected)
  | .relinquish k expected => rows.any fun r => r.key = key && r.leasedAs k expected
  | .reschedule k _ _ expected => rows.any fun r => r.key = key && r.leasedAs k expected

inductive ScanEvent where
  | page
  | lease (now : Timestamp) (call : LeaseCall)

structure ScanState where
  rows : AffinityTable
  scan : Walk (ℕ ×ₗ String)

def ScanEvent.step (limit : ℕ) (cutoff : Timestamp) : ScanEvent → ScanState → ScanState
  | .page, s => { s with scan := scanPage limit cutoff s.rows s.scan }
  | .lease now call, s => { s with rows := call.perform now s.rows }

/-- The state after some events of a scan that begins with `rows`. -/
def scanRun (limit : ℕ) (cutoff : Timestamp) (rows : AffinityTable) (events : List ScanEvent) :
    ScanState :=
  runAll (ScanEvent.step limit cutoff) events ⟨rows, Walk.start⟩

/-- The row of `key` holds a settlement. -/
def SettlementPending (rows : AffinityTable) (key : AffinityKey) : Prop :=
  ∃ r ∈ rows, r.key = key ∧ r.settlement.isSome

/-- The database clock moves forward from the cutoff. -/
def ClockFrom : Timestamp → List ScanEvent → Prop
  | _, [] => True
  | t, .page :: rest => ClockFrom t rest
  | t, .lease now _ :: rest => t < now ∧ ClockFrom now rest

/-- No lease operation touches the row before the scan has returned it. -/
def Spared (limit : ℕ) (cutoff : Timestamp) (key : AffinityKey) :
    List ScanEvent → ScanState → Prop
  | [], _ => True
  | .page :: rest, s => Spared limit cutoff key rest (ScanEvent.page.step limit cutoff s)
  | .lease now call :: rest, s =>
    (scanKey key ∉ s.scan.seen → call.touches now s.rows key = false) ∧
      Spared limit cutoff key rest ((ScanEvent.lease now call).step limit cutoff s)

/-! ## What a lease operation leaves alone -/

variable {rows : AffinityTable} {now cutoff : Timestamp} {key : AffinityKey} {limit : ℕ}

theorem LeaseCall.perform_keys (call : LeaseCall) :
    (call.perform now rows).map ResponseAffinity.key = rows.map ResponseAffinity.key := by
  cases call with
  | claim | renew | relinquish => exact Relational.map_updateWhere fun _ _ _ => rfl
  | reschedule k settlement nextPollAt expected =>
    simp only [LeaseCall.perform, rescheduleClaimedSettlement]
    split
    · exact Relational.map_updateWhere fun _ _ _ => rfl
    · rfl

variable {r : ResponseAffinity}

theorem mem_updateWhere_of_unmet {p : ResponseAffinity → Bool}
    {f : ResponseAffinity → ResponseAffinity} (hr : r ∈ rows) (unmet : p r = false) :
    r ∈ updateWhere p f rows :=
  Relational.mem_updateWhere.mpr ⟨r, hr, by simp [unmet]⟩

theorem LeaseCall.mem_perform (call : LeaseCall) (hr : r ∈ rows)
    (untouched : call.touches now rows r.key = false) : r ∈ call.perform now rows := by
  have unmet : ∀ p : ResponseAffinity → Bool,
      (rows.any fun r' => r'.key = r.key && p r') = false → p r = false :=
    fun p none => by simpa using List.any_eq_false.mp none r hr
  cases call with
  | claim request =>
    exact mem_updateWhere_of_unmet hr (by simpa [LeaseCall.touches] using untouched)
  | renew k expected duration =>
    refine mem_updateWhere_of_unmet hr
      (unmet (fun r => r.leasedAs k expected && decide (now < expected)) ?_)
    simpa [LeaseCall.touches, Bool.and_assoc] using untouched
  | relinquish k expected => exact mem_updateWhere_of_unmet hr (unmet _ untouched)
  | reschedule k settlement nextPollAt expected =>
    simp only [LeaseCall.perform, rescheduleClaimedSettlement]
    split
    · exact mem_updateWhere_of_unmet hr (unmet _ untouched)
    · exact hr

/-! ## Every spared row is returned once -/

theorem recoverable_unique (unique : (rows.map ResponseAffinity.key).Nodup) :
    ((recoverable cutoff rows).map ResponseAffinity.scanOrder).Nodup := by
  have keys : ((recoverable cutoff rows).map ResponseAffinity.key).Nodup :=
    unique.sublist (List.filter_sublist.map _)
  have := keys.map scanKey_injective
  rwa [List.map_map] at this

/-- What the scan has done for a key so far: keys are returned in order, the key was returned or is
ahead, and until then its row is as it was at the start. -/
structure ScanInvariant (r : ResponseAffinity) (s : ScanState) : Prop where
  unique : (s.rows.map ResponseAffinity.key).Nodup
  ordered : s.scan.Ordered
  covers : s.scan.Covers (scanKey r.key)
  kept : scanKey r.key ∉ s.scan.seen → r ∈ s.rows

theorem ScanInvariant.page {s : ScanState} (h : ScanInvariant r s) (positive : 0 < limit)
    (eligible : r.settlement.isSome ∧ r.updatedAt ≤ cutoff) :
    ScanInvariant r (ScanEvent.page.step limit cutoff s) := by
  have unique : ((recoverable cutoff s.rows).map ResponseAffinity.scanOrder).Nodup :=
    recoverable_unique h.unique
  have covers : (scanPage limit cutoff s.rows s.scan).Covers (scanKey r.key) := by
    by_cases seen : scanKey r.key ∈ s.scan.seen
    · -- what was returned stays returned
      unfold scanPage Walk.visit
      split
      · exact .inl seen
      · exact .inl (List.mem_append_left _ seen)
    · have member : r ∈ recoverable cutoff s.rows :=
        List.mem_filter.mpr ⟨h.kept seen, by simp [eligible]⟩
      have covers : s.scan.Covers r.scanOrder := h.covers
      exact covers.visit member unique
  refine ⟨h.unique, h.ordered.visit positive unique, covers, fun unseen => h.kept fun seen => ?_⟩
  refine unseen ?_
  change _ ∈ (scanPage limit cutoff s.rows s.scan).seen
  unfold scanPage Walk.visit
  split
  · exact seen
  · exact List.mem_append_left _ seen

theorem ScanInvariant.lease {s : ScanState} (h : ScanInvariant r s) (call : LeaseCall)
    (spared : scanKey r.key ∉ s.scan.seen → call.touches now s.rows r.key = false) :
    ScanInvariant r ((ScanEvent.lease now call).step limit cutoff s) where
  unique := by
    change ((call.perform now s.rows).map ResponseAffinity.key).Nodup
    rw [call.perform_keys]
    exact h.unique
  ordered := h.ordered
  covers := h.covers
  kept unseen := call.mem_perform (h.kept unseen) (spared unseen)

theorem ScanInvariant.run (positive : 0 < limit)
    (eligible : r.settlement.isSome ∧ r.updatedAt ≤ cutoff) :
    ∀ (events : List ScanEvent) {s : ScanState}, ScanInvariant r s →
      Spared limit cutoff r.key events s →
      ScanInvariant r (runAll (ScanEvent.step limit cutoff) events s) := by
  intro events
  induction events with
  | nil => exact fun h _ => h
  | cons e rest ih =>
    intro s h spared
    cases e with
    | page => exact ih (h.page positive eligible) spared
    | lease now call => exact ih (h.lease call spared.1) spared.2

/-- **A spared row is returned exactly once.**  In every run of the scan with lease operations of
other replicas, a row whose settlement is pending at the cutoff, and that no lease operation
touches before the scan has returned it, has been returned exactly once when the scan ends. -/
theorem recovery_visits_spared (limit : ℕ) (positive : 0 < limit) (cutoff : Timestamp)
    (rows : AffinityTable) (unique : (rows.map ResponseAffinity.key).Nodup)
    (current : ∀ r ∈ rows, r.updatedAt ≤ cutoff) (events : List ScanEvent)
    (ended : (scanRun limit cutoff rows events).scan.finished = true) (key : AffinityKey)
    (pending : SettlementPending rows key)
    (spared : Spared limit cutoff key events ⟨rows, Walk.start⟩) :
    (scanRun limit cutoff rows events).scan.seen.count (scanKey key) = 1 := by
  obtain ⟨r, hr, rfl, settlement⟩ := pending
  have start : ScanInvariant r ⟨rows, Walk.start⟩ :=
    ⟨unique, Walk.start_ordered, Walk.start_covers _, fun _ => hr⟩
  have final := start.run positive ⟨settlement, current r hr⟩ events spared
  have returned : scanKey r.key ∈ (scanRun limit cutoff rows events).scan.seen := by
    rcases final.covers with seen | ⟨running, -⟩
    · exact seen
    · exact absurd (ended.symm.trans running) (by simp)
  exact List.count_eq_one_of_mem final.ordered.nodup returned

def sampleOutbox (responseId : String) : ResponseAffinity where
  tenantId := 1
  userId := some 2
  responseId := responseId
  resourceKind := some .response
  provider := "openai"
  model := none
  accountId := some 4
  isReservation := false
  localState := none
  settlement := some ⟨7, none, 1, "openai", 4, none, 0⟩
  settlementNextPollAt := some 5
  settlementLeaseUntil := none
  deletedAt := none
  expiresAt := 900
  updatedAt := 5

/-- A claim by another replica, which took its own cutoff a little earlier. -/
def otherReplica : LeaseCall :=
  .claim { limit := 8, leaseDuration := 30, dueBefore := 9, after := none, locked := [] }

/-- Another replica claims the row between the cutoff and the first page: it is still pending when
the scan ends, and was never returned. -/
theorem recovery_misses_claimed :
    ClockFrom 10 [.lease 11 otherReplica, .page] ∧
      SettlementPending [sampleOutbox "resp_a"] (1, "resp_a") ∧
      SettlementPending
        (scanRun 1 10 [sampleOutbox "resp_a"] [.lease 11 otherReplica, .page]).rows
        (1, "resp_a") ∧
      (scanRun 1 10 [sampleOutbox "resp_a"] [.lease 11 otherReplica, .page]).scan.finished = true ∧
      (scanRun 1 10 [sampleOutbox "resp_a"] [.lease 11 otherReplica, .page]).scan.seen.count
        (scanKey (1, "resp_a")) = 0 := by
  have pending : ∀ rows : AffinityTable, (rows.any fun r =>
      decide (r.key = (1, "resp_a")) && r.settlement.isSome) = true →
      SettlementPending rows (1, "resp_a") := by
    intro rows h
    obtain ⟨r, hr, both⟩ := List.any_eq_true.mp h
    simp only [Bool.and_eq_true, decide_eq_true_eq] at both
    exact ⟨r, hr, both⟩
  refine ⟨⟨by decide, trivial⟩, pending _ (by decide +kernel), pending _ (by decide +kernel),
    by decide +kernel, by decide +kernel⟩

/-- The rule at a scan in which the row is claimed after it was returned. -/
theorem recovery_visits_spared_claimedLater :
    (scanRun 1 10 [sampleOutbox "resp_a"]
        [.lease 11 (.renew (1, "resp_a") 5 30), .page, .lease 12 otherReplica,
          .page]).scan.seen.count (scanKey (1, "resp_a")) = 1 := by
  refine recovery_visits_spared 1 (by decide) 10 _ (by decide) (by decide) _ (by decide +kernel)
    (1, "resp_a") ⟨sampleOutbox "resp_a", by simp, rfl, rfl⟩ ?_
  refine ⟨fun _ => by decide +kernel, fun unseen => absurd ?_ unseen, trivial⟩
  decide +kernel

end KeyCompute.Responses
