import KeyCompute.Responses.Affinity

/-!
# Settlement workers, inline billing and deletions

The system around the settlement outbox: handlers that save responses and outboxes, workers that
claim due settlements and bill them, inline billing that acknowledges its own outbox, and handlers
that delete resources.  Each party may stop at any point (`crash`).

What a party does outside the database is an event with its outcome; `usageLogs` and `replayed`
record the billing requests whose log was committed and whose effects were replayed.
-/

namespace KeyCompute.Responses

open Relational (Tx atomically)

/-- `BACKGROUND_SETTLEMENT_LEASE_TTL`: half of the rate limiter's window of a minute. -/
def settlementLeaseTtl : Timestamp := 30 * 1000000

/-! ## Saving -/

/-- `save_response_affinity_if_stored` with a settlement: the route of a stored response is
bound to its kind in the same transaction. -/
def saveResponseAffinity (now : Timestamp) (t : RouteTarget) (settlement : Settlement)
    (nextPollAt : Timestamp) (hiddenAt : Option Timestamp) : Tx AffinityTable DbError Unit := do
  let _ ← upsertRouteWithSettlementVisibility now t settlement nextPollAt hiddenAt
  if hiddenAt.isSome then pure () else bindResourceKind t .response

/-- `save_response_affinity` without a settlement. -/
def saveRouteAffinity (now : Timestamp) (t : RouteTarget) (kind : ResourceKind) :
    Tx AffinityTable DbError Unit := do
  let _ ← upsertRouteInTx now t
  bindResourceKind t kind

/-! ## Workers -/

inductive WorkerPhase where
  /-- claimed, before its token reservation is restored -/
  | claimed
  /-- restored; the claim is not confirmed yet -/
  | restored
  /-- the claim is confirmed; looking for or making the usage log -/
  | fenced
  /-- the usage log is committed -/
  | ledgered
  /-- tokens are recorded and the claim is confirmed once more -/
  | reconciled
  /-- the effects of the usage log are replayed -/
  | replayed
  | ended
  deriving DecidableEq

/-- A settlement worker: the row as it was claimed, and the lease it holds. -/
structure SettlementWorker where
  affinity : ResponseAffinity
  settlement : Settlement
  lease : Timestamp
  phase : WorkerPhase

def SettlementWorker.key (w : SettlementWorker) : AffinityKey := w.affinity.key

/-- The worker of a claimed row; a row without settlement or lease gets none. -/
def SettlementWorker.ofClaim (r : ResponseAffinity) : Option SettlementWorker :=
  match r.settlement, r.settlementLeaseUntil with
  | some settlement, some lease => some ⟨r, settlement, lease, .claimed⟩
  | _, _ => none

/-- The settlement is not that of the row it was found in. -/
def SettlementWorker.ownershipMismatch (w : SettlementWorker) : Bool :=
  w.settlement.tenantId ≠ w.affinity.tenantId ∨
    w.settlement.affinityAccountId ≠ w.affinity.accountId ∨
    w.settlement.provider ≠ w.affinity.provider

inductive WorkerAction where
  /-- `restore_background_tpm_lease_if_needed` succeeded -/
  | restore
  /-- the renewal that confirms the claim before any work -/
  | fence
  /-- a renewal of the maintenance loop -/
  | maintain
  /-- the token reservation could not be kept -/
  | relinquish
  /-- the usage log was already there -/
  | findLedger
  /-- the response is terminal, or its deadline has passed -/
  | conclude (status : String)
  /-- `finalize_and_save` succeeded -/
  | finalize
  /-- the tokens are recorded, and the claim is renewed -/
  | reconcile
  /-- `replay_saved_usage_effects` succeeded -/
  | replay
  /-- `reschedule_background_job`, after a failure or an unfinished response -/
  | reschedule (nextPollAt : Timestamp)
  /-- `clear_claimed_background_job` -/
  | clear
  | crash

/-! ## Inline billing and deletions -/

inductive InlinePhase where
  | running | ledgered | replayed | finished | ended
  deriving DecidableEq

/-- Billing of a request by the handler that served it. -/
structure InlineBilling where
  tenantId : Uuid
  billingRequest : Uuid
  phase : InlinePhase

inductive InlineAction where
  /-- `finalize_and_save` succeeded -/
  | finalize
  /-- `replay_saved_usage_effects` succeeded -/
  | replay
  /-- the tokens are recorded -/
  | record
  /-- `acknowledge_terminal_settlement_outbox` -/
  | acknowledge
  | crash

inductive DeletionPhase where
  | requested | unblocked | located | ended
  deriving DecidableEq

/-- A `DELETE` of a response resource. -/
structure Deletion where
  tenantId : Uuid
  userId : Uuid
  responseId : String
  phase : DeletionPhase

def Deletion.key (d : Deletion) : AffinityKey := (d.tenantId, d.responseId)

inductive DeletionAction where
  /-- `has_pending_settlement_for_user` -/
  | check
  /-- `local_response_affinity`, or `resolve_response_account` and a confirmed upstream delete -/
  | locate
  /-- `delete_response_affinity` -/
  | remove
  | crash

/-! ## The system -/

structure SettlementSystem where
  rows : AffinityTable
  workers : List SettlementWorker
  inlines : List InlineBilling
  deletions : List Deletion
  usageLogs : List Uuid
  replayed : List Uuid
  /-- the time of the last transaction -/
  clock : Timestamp

inductive SettlementAction where
  /-- `save_response_affinity_if_stored` of a response with its settlement; one that is not
  stored is hidden -/
  | saveResponse (target : RouteTarget) (accountId : Uuid) (settlement : Settlement)
      (nextPollAt : Timestamp) (hiddenAt : Option Timestamp)
  /-- `persist_immediate_terminal_settlement_outbox_inner`, or the synthetic fallback of a
  terminal response -/
  | saveOutbox (target : RouteTarget) (settlement : Settlement) (nextPollAt hiddenAt : Timestamp)
  /-- `save_response_affinity` without a settlement -/
  | saveRoute (target : RouteTarget) (accountId : Uuid) (kind : ResourceKind)
  /-- `persist_responses_warmup` -/
  | saveWarmup (target : RouteTarget) (state : LocalState)
  /-- one batch of `drain_due_background_settlements` -/
  | claim (limit : ℕ) (dueBefore : Timestamp) (after : Option SettlementClaimCursor)
      (locked : List AffinityKey)
  | worker (index : ℕ) (action : WorkerAction)
  | beginInline (tenantId billingRequest : Uuid)
  | inline (index : ℕ) (action : InlineAction)
  | beginDeletion (tenantId userId : Uuid) (responseId : String)
  | deletion (index : ℕ) (action : DeletionAction)
  /-- the delete of the tenant administration -/
  | tombstoneNative (tenantId userId : Uuid) (responseId : String) (accountId : Uuid)
      (kind : ResourceKind)
  | deleteExpired
  | deleteAccountRoutes (accountId : Uuid)

namespace SettlementSystem

def setWorker (s : SettlementSystem) (i : ℕ) (w : SettlementWorker) : SettlementSystem :=
  { s with workers := s.workers.set i w }

/-- `lease.renew`: the worker continues in phase `next` if the renewal met its row, and stops
otherwise. -/
def renew (now : Timestamp) (s : SettlementSystem) (i : ℕ) (w : SettlementWorker)
    (next : WorkerPhase) : SettlementSystem :=
  let renewed := renewClaimedSettlement now w.key w.lease settlementLeaseTtl s.rows
  match renewed.1 with
  | some lease => { s with rows := renewed.2 }.setWorker i { w with lease, phase := next }
  | none => { s with rows := renewed.2 }.setWorker i { w with phase := .ended }

/-- One action of a worker, in the order of `settle_background_job_under_lease`.  An action that
is not the worker's turn does nothing. -/
def workerStep (now : Timestamp) (s : SettlementSystem) (i : ℕ) (w : SettlementWorker) :
    WorkerAction → SettlementSystem
  | .restore =>
    if w.phase = .claimed then
      s.setWorker i { w with phase := if w.ownershipMismatch then .ended else .restored }
    else s
  | .fence => if w.phase = .restored then s.renew now i w .fenced else s
  | .maintain =>
    if w.phase = .claimed ∨ w.phase = .ended then s else s.renew now i w w.phase
  | .relinquish =>
    if w.phase = .claimed ∨ w.phase = .ended then s
    else { s with rows := relinquishClaimedSettlement now w.key w.lease s.rows }.setWorker i
      { w with phase := .ended }
  | .findLedger =>
    if w.phase = .fenced ∧ w.settlement.billingRequest ∈ s.usageLogs then
      s.setWorker i { w with phase := .ledgered }
    else s
  | .conclude status =>
    if w.phase = .fenced then
      s.setWorker i { w with settlement := { w.settlement with terminalStatus := some status } }
    else s
  | .finalize =>
    if w.phase = .fenced ∧ w.settlement.terminalStatus.isSome then
      { s with usageLogs := w.settlement.billingRequest :: s.usageLogs }.setWorker i
        { w with phase := .ledgered }
    else s
  | .reconcile => if w.phase = .ledgered then s.renew now i w .reconciled else s
  | .replay =>
    if w.phase = .reconciled then
      { s with replayed := w.settlement.billingRequest :: s.replayed }.setWorker i
        { w with phase := .replayed }
    else s
  | .reschedule nextPollAt =>
    if w.phase = .fenced ∨ w.phase = .ledgered ∨ w.phase = .reconciled then
      { s with
        rows := rescheduleClaimedSettlement now w.key
          { w.settlement with attempt := w.settlement.attempt + 1 } nextPollAt w.lease
          s.rows }.setWorker i { w with phase := .ended }
    else s
  | .clear =>
    if w.phase = .replayed then
      { s with rows := clearClaimedSettlement now w.key w.lease s.rows }.setWorker i
        { w with phase := .ended }
    else s
  | .crash => s.setWorker i { w with phase := .ended }

def setInline (s : SettlementSystem) (i : ℕ) (b : InlineBilling) : SettlementSystem :=
  { s with inlines := s.inlines.set i b }

def inlineStep (now : Timestamp) (s : SettlementSystem) (i : ℕ) (b : InlineBilling) :
    InlineAction → SettlementSystem
  | .finalize =>
    if b.phase = .running then
      { s with usageLogs := b.billingRequest :: s.usageLogs }.setInline i
        { b with phase := .ledgered }
    else s
  | .replay =>
    if b.phase = .ledgered then
      { s with replayed := b.billingRequest :: s.replayed }.setInline i
        { b with phase := .replayed }
    else s
  | .record => if b.phase = .replayed then s.setInline i { b with phase := .finished } else s
  | .acknowledge =>
    if b.phase = .finished then
      { s with
        rows := clearCompletedSettlements now b.tenantId b.billingRequest s.rows }.setInline i
          { b with phase := .ended }
    else s
  | .crash => s.setInline i { b with phase := .ended }

def setDeletion (s : SettlementSystem) (i : ℕ) (d : Deletion) : SettlementSystem :=
  { s with deletions := s.deletions.set i d }

/-- One action of a deletion: it is refused while a settlement is pending, and needs an active
resource that is local or has an account. -/
def deletionStep (now : Timestamp) (s : SettlementSystem) (i : ℕ) (d : Deletion) :
    DeletionAction → SettlementSystem
  | .check =>
    if d.phase = .requested then
      s.setDeletion i { d with
        phase := if hasPendingSettlement d.tenantId d.userId d.responseId s.rows then .ended
          else .unblocked }
    else s
  | .locate =>
    if d.phase = .unblocked then
      s.setDeletion i { d with
        phase :=
          if (findActive now d.tenantId d.userId d.responseId s.rows).any fun r =>
              r.localState.isSome || r.accountId.isSome then .located else .ended }
    else s
  | .remove =>
    if d.phase = .located then
      { s with
        rows := deleteRoutePreservingSettlement now d.tenantId d.userId d.responseId
          s.rows }.setDeletion i { d with phase := .ended }
    else s
  | .crash => s.setDeletion i { d with phase := .ended }

def onRows {α : Type} (s : SettlementSystem) (body : Tx AffinityTable DbError α) :
    SettlementSystem :=
  { s with rows := (atomically body s.rows).2 }

def perform (now : Timestamp) (s : SettlementSystem) : SettlementAction → SettlementSystem
  | .saveResponse target accountId settlement nextPollAt hiddenAt =>
    s.onRows (saveResponseAffinity now { target with accountId := some accountId } settlement
      nextPollAt hiddenAt)
  | .saveOutbox target settlement nextPollAt hiddenAt =>
    s.onRows (upsertRouteWithSettlementVisibility now target settlement nextPollAt
      (some hiddenAt))
  | .saveRoute target accountId kind =>
    s.onRows (saveRouteAffinity now { target with accountId := some accountId } kind)
  | .saveWarmup target state => s.onRows (upsertLocal now target state)
  | .claim limit dueBefore after locked =>
    let claimed := claimDueSettlementsBefore now
      { limit, leaseDuration := settlementLeaseTtl, dueBefore, after, locked } s.rows
    { s with
      rows := claimed.2
      workers := s.workers ++ claimed.1.filterMap SettlementWorker.ofClaim }
  | .worker i action =>
    match s.workers[i]? with
    | some w => s.workerStep now i w action
    | none => s
  | .beginInline tenantId billingRequest =>
    { s with inlines := s.inlines ++ [⟨tenantId, billingRequest, .running⟩] }
  | .inline i action =>
    match s.inlines[i]? with
    | some b => s.inlineStep now i b action
    | none => s
  | .beginDeletion tenantId userId responseId =>
    { s with deletions := s.deletions ++ [⟨tenantId, userId, responseId, .requested⟩] }
  | .deletion i action =>
    match s.deletions[i]? with
    | some d => s.deletionStep now i d action
    | none => s
  | .tombstoneNative tenantId userId responseId accountId kind =>
    { s with
      rows := tombstoneNativeResource now tenantId userId responseId accountId kind s.rows }
  | .deleteExpired => { s with rows := Responses.deleteExpired now s.rows }
  | .deleteAccountRoutes accountId =>
    { s with rows := deleteSettledAccountRoutes accountId s.rows }

end SettlementSystem

structure SettlementEvent where
  now : Timestamp
  action : SettlementAction

def SettlementEvent.step (e : SettlementEvent) (s : SettlementSystem) : SettlementSystem :=
  { s.perform e.now e.action with clock := e.now }

end KeyCompute.Responses
