import KeyCompute.Database.Value
import KeyCompute.Json.Value
import KeyCompute.Relational.Table
import KeyCompute.Relational.Transaction

/-!
# Response affinities and their settlements

A row of `response_affinities` routes a response or conversation to its upstream account, and
carries the **settlement** of a billing request until usage is billed.

* The worker's lease on a row is the value of `settlement_lease_until`: a worker shows the value it
  was given, and the statement matches no row if another one is there.
* A row without an account is a stored warmup or a hidden outbox (`ownerCheck`).
* The functions with and without `_for_user` are one definition over an optional user, but for two:
  `upsertRouteInTx` and `upsertLocal` are the `_for_user` variants.  Without a user,
  `upsert_route_in_tx` also sets `deleted_at` to `NULL`, and `upsert_local` does not look at it.
-/

namespace KeyCompute.Responses

open Relational (Tx lookup updateWhere)

/-! ## Rows -/

inductive ResourceKind where
  | response | conversation
  deriving DecidableEq

/-- `BackgroundSettlement`, as far as the outbox and its workers look at it. -/
structure Settlement where
  requestId : Uuid
  billingRequestId : Option Uuid
  tenantId : Uuid
  provider : String
  accountId : Uuid
  terminalStatus : Option String
  attempt : ℕ
  deriving DecidableEq

/-- `settlement_billing_request_id`, and the `COALESCE` of the acknowledging statements. -/
def Settlement.billingRequest (s : Settlement) : Uuid := s.billingRequestId.getD s.requestId

/-- `settlement_affinity_account_id`. -/
def Settlement.affinityAccountId (s : Settlement) : Option Uuid :=
  if s.accountId.isNil then none else some s.accountId

/-- The local response of a warmup with its continuation context. -/
structure LocalState where
  response : JsonValue
  context : JsonValue
  contextBytes : ℕ

structure ResponseAffinity where
  tenantId : Uuid
  userId : Option Uuid
  responseId : String
  resourceKind : Option ResourceKind
  provider : String
  model : Option String
  accountId : Option Uuid
  isReservation : Bool
  localState : Option LocalState
  settlement : Option Settlement
  settlementNextPollAt : Option Timestamp
  settlementLeaseUntil : Option Timestamp
  deletedAt : Option Timestamp
  expiresAt : Timestamp
  updatedAt : Timestamp

abbrev AffinityKey := Uuid × String

def ResponseAffinity.key (r : ResponseAffinity) : AffinityKey := (r.tenantId, r.responseId)

abbrev AffinityTable := List ResponseAffinity

/-- `LIKE` of a pattern without `%`, followed by `%`: `_` stands for any character. -/
def likePrefix : List Char → List Char → Bool
  | [], _ => true
  | _ :: _, [] => false
  | p :: pattern, c :: text => (p = '_' || p = c) && likePrefix pattern text

/-- The `CHECK` `ck_response_affinities_account_owner`. -/
def ResponseAffinity.ownerCheck (r : ResponseAffinity) : Bool :=
  r.accountId.isSome || (!r.isReservation &&
    ((r.settlement.isNone && r.deletedAt.isNone && r.localState.any fun l =>
        match l.context.get "upstream_previous_response_id" with
        | some .null => true
        | _ => false) ||
      (likePrefix "resp_kc_settlement_".toList r.responseId.toList &&
        (r.settlement.any fun s => s.terminalStatus.isSome && s.accountId.isNil) &&
        r.settlementNextPollAt.isSome && r.deletedAt.isSome && r.localState.isNone)))

def ownershipCollision (responseId : String) : DbError :=
  .duplicateKey "response affinity ownership" "response_id" responseId

/-! ## Upserts -/

/-- `INSERT row ON CONFLICT (tenant_id, response_id) DO UPDATE SET merge WHERE mayUpdate`, which
reports a collision where it meets no row. -/
def upsertAffinity (row : ResponseAffinity) (mayUpdate : ResponseAffinity → Bool)
    (merge : ResponseAffinity → ResponseAffinity) : Tx AffinityTable DbError ResponseAffinity := do
  let existing ← Tx.read (lookup ResponseAffinity.key row.key)
  match existing with
  | none => do
    Tx.failIf (¬ row.ownerCheck) (.databaseError "ck_response_affinities_account_owner")
    Tx.modify fun rows => rows ++ [row]
    pure row
  | some old => do
    Tx.failIf (¬ mayUpdate old) (ownershipCollision row.responseId)
    Tx.failIf (¬ (merge old).ownerCheck) (.databaseError "ck_response_affinities_account_owner")
    Tx.modify (Relational.updateKey ResponseAffinity.key row.key merge)
    pure (merge old)

structure RouteTarget where
  tenantId : Uuid
  userId : Option Uuid
  responseId : String
  provider : String
  model : Option String
  accountId : Option Uuid
  expiresAt : Timestamp

def RouteTarget.key (t : RouteTarget) : AffinityKey := (t.tenantId, t.responseId)

/-- A fresh row for a target; the other columns have their defaults. -/
def RouteTarget.row (t : RouteTarget) (now : Timestamp) : ResponseAffinity where
  tenantId := t.tenantId
  userId := t.userId
  responseId := t.responseId
  resourceKind := none
  provider := t.provider
  model := t.model
  accountId := t.accountId
  isReservation := false
  localState := none
  settlement := none
  settlementNextPollAt := none
  settlementLeaseUntil := none
  deletedAt := none
  expiresAt := t.expiresAt
  updatedAt := now

/-- The owner of the row is the owner of the target. -/
def RouteTarget.owns (t : RouteTarget) (r : ResponseAffinity) : Bool :=
  r.userId = t.userId ∧ r.accountId = t.accountId

def upsertRouteWithSettlementVisibility (now : Timestamp) (t : RouteTarget)
    (settlement : Settlement) (nextPollAt : Timestamp) (deletedAt : Option Timestamp) :
    Tx AffinityTable DbError ResponseAffinity :=
  upsertAffinity
    { t.row now with settlement := settlement, settlementNextPollAt := nextPollAt, deletedAt }
    t.owns
    fun r => { r with
      provider := t.provider, model := t.model, accountId := t.accountId, isReservation := false,
      settlement := settlement, settlementNextPollAt := nextPollAt, settlementLeaseUntil := none,
      expiresAt := t.expiresAt, updatedAt := max r.updatedAt now }

/-- `upsert_route_in_tx_for_user`. -/
def upsertRouteInTx (now : Timestamp) (t : RouteTarget) :
    Tx AffinityTable DbError ResponseAffinity :=
  upsertAffinity (t.row now) t.owns
    fun r => { r with
      provider := t.provider, model := t.model, accountId := t.accountId, isReservation := false,
      expiresAt := t.expiresAt, updatedAt := max r.updatedAt now }

/-- `upsert_local_for_user`, within the tenant's quota. -/
def upsertLocal (now : Timestamp) (t : RouteTarget) (state : LocalState) :
    Tx AffinityTable DbError ResponseAffinity :=
  upsertAffinity { t.row now with localState := state }
    (fun r => r.deletedAt.isNone && t.owns r)
    fun r => { r with
      provider := t.provider, model := t.model, accountId := t.accountId, isReservation := false,
      localState := state, deletedAt := none, expiresAt := t.expiresAt,
      updatedAt := max r.updatedAt now }

/-! ## Lookups and deletions -/

/-- The row a user's request for a resource means. -/
def ResponseAffinity.isResource (tenantId : Uuid) (userId : Option Uuid) (responseId : String)
    (r : ResponseAffinity) : Bool :=
  r.tenantId = tenantId ∧ r.userId = userId ∧ r.responseId = responseId ∧ r.isReservation = false

/-- `bind_resource_kind_for_user`, with the transaction's failure where it meets no row. -/
def bindResourceKind (t : RouteTarget) (kind : ResourceKind) : Tx AffinityTable DbError Unit := do
  let p : ResponseAffinity → Bool := fun r =>
    r.isResource t.tenantId t.userId t.responseId && r.deletedAt.isNone &&
      r.resourceKind.all fun k => k = kind
  let updated ← Tx.read fun rows => (rows.filter p).length
  Tx.failIf (updated ≠ 1) (ownershipCollision t.responseId)
  Tx.modify (updateWhere p fun r => { r with resourceKind := some kind })

/-- `find_active_snapshot_for_user` and its locking variants. -/
def findActive (now : Timestamp) (tenantId : Uuid) (userId : Option Uuid) (responseId : String)
    (rows : AffinityTable) : Option ResponseAffinity :=
  rows.find? fun r =>
    r.isResource tenantId userId responseId && r.deletedAt.isNone && decide (now < r.expiresAt)

def hasPendingSettlement (tenantId : Uuid) (userId : Option Uuid) (responseId : String)
    (rows : AffinityTable) : Bool :=
  rows.any fun r => r.isResource tenantId userId responseId && r.settlement.isSome

def ResponseAffinity.tombstone (now : Timestamp) (r : ResponseAffinity) : ResponseAffinity :=
  { r with
    deletedAt := some (r.deletedAt.getD now), localState := none, updatedAt := max r.updatedAt now }

/-- `delete_route_preserving_settlement` and its `_for_user` variant: a row without an account is
removed, one with an account keeps a tombstone. -/
def deleteRoutePreservingSettlement (now : Timestamp) (tenantId : Uuid) (userId : Option Uuid)
    (responseId : String) (rows : AffinityTable) : AffinityTable :=
  let meant := ResponseAffinity.isResource tenantId userId responseId
  updateWhere (fun r => meant r && r.accountId.isSome) (ResponseAffinity.tombstone now)
    (rows.filter fun r => !(meant r && r.accountId.isNone))

def tombstoneNativeResource (now : Timestamp) (tenantId : Uuid) (userId : Option Uuid)
    (responseId : String) (accountId : Uuid) (kind : ResourceKind) (rows : AffinityTable) :
    AffinityTable :=
  updateWhere (fun r => r.isResource tenantId userId responseId && decide
      (r.accountId = some accountId ∧ r.resourceKind = some kind ∧ r.deletedAt = none) &&
      r.settlement.isNone)
    (ResponseAffinity.tombstone now) rows

def deleteExpired (now : Timestamp) (rows : AffinityTable) : AffinityTable :=
  rows.filter fun r => !(decide (r.expiresAt ≤ now) && r.settlement.isNone)

def deleteSettledAccountRoutes (accountId : Uuid) (rows : AffinityTable) : AffinityTable :=
  rows.filter fun r => !(decide (r.accountId = some accountId) && r.settlement.isNone &&
    !r.isReservation)

/-! ## Claims on settlements -/

/-- The position of a row in a sweep: `(settlement_next_poll_at, tenant_id, response_id)`. -/
structure SettlementClaimCursor where
  settlementNextPollAt : Timestamp
  tenantId : Uuid
  responseId : String
  deriving DecidableEq

/-- The order of the sweep, bytewise on the response id. -/
def SettlementClaimCursor.before (a b : SettlementClaimCursor) : Bool :=
  if a.settlementNextPollAt ≠ b.settlementNextPollAt then
    a.settlementNextPollAt < b.settlementNextPollAt
  else if a.tenantId ≠ b.tenantId then a.tenantId.bits < b.tenantId.bits
  else a.responseId < b.responseId

def ResponseAffinity.cursor (r : ResponseAffinity) : SettlementClaimCursor :=
  ⟨r.settlementNextPollAt.getD 0, r.tenantId, r.responseId⟩

structure ClaimRequest where
  limit : ℕ
  leaseDuration : Timestamp
  dueBefore : Timestamp
  after : Option SettlementClaimCursor
  /-- rows another transaction has locked, which `SKIP LOCKED` passes over -/
  locked : List AffinityKey

def ClaimRequest.due (c : ClaimRequest) (now : Timestamp) (r : ResponseAffinity) : Bool :=
  r.settlement.isSome && (r.settlementNextPollAt.any fun t => t ≤ c.dueBefore) &&
    decide (r.updatedAt ≤ c.dueBefore) && (r.settlementLeaseUntil.all fun lease => lease ≤ now) &&
    (c.after.all fun cursor => cursor.before r.cursor) && decide (r.key ∉ c.locked)

/-- The rows it takes: the first ones in the order of the sweep. -/
def ClaimRequest.taken (c : ClaimRequest) (now : Timestamp) (rows : AffinityTable) :
    List AffinityKey :=
  (((rows.filter (c.due now)).mergeSort fun a b => !b.cursor.before a.cursor).take c.limit).map
    ResponseAffinity.key

/-- `claim_due_settlements_before_for`: the new leases, and the rows claimed. -/
def claimDueSettlementsBefore (now : Timestamp) (c : ClaimRequest) (rows : AffinityTable) :
    List ResponseAffinity × AffinityTable :=
  let taken := c.taken now rows
  let claimed := updateWhere (fun r => r.key ∈ taken)
    (fun r => { r with
      settlementLeaseUntil := some (now + c.leaseDuration)
      updatedAt := max now (c.dueBefore + 1) }) rows
  (claimed.filter fun r => r.key ∈ taken, claimed)

/-- The row whose lease generation the caller shows. -/
def ResponseAffinity.leasedAs (key : AffinityKey) (lease : Timestamp) (r : ResponseAffinity) :
    Bool :=
  r.key = key ∧ r.settlement.isSome ∧ r.settlementLeaseUntil = some lease

def renewClaimedSettlement (now : Timestamp) (key : AffinityKey) (expected duration : Timestamp)
    (rows : AffinityTable) : Option Timestamp × AffinityTable :=
  let p : ResponseAffinity → Bool := fun r => r.leasedAs key expected && decide (now < expected)
  (if rows.any p then some (now + duration) else none,
    updateWhere p (fun r => { r with
      settlementLeaseUntil := some (now + duration), updatedAt := max r.updatedAt now }) rows)

def relinquishClaimedSettlement (now : Timestamp) (key : AffinityKey) (expected : Timestamp)
    (rows : AffinityTable) : AffinityTable :=
  updateWhere (ResponseAffinity.leasedAs key expected)
    (fun r => { r with settlementLeaseUntil := none, updatedAt := max r.updatedAt now }) rows

/-- The row as `reschedule_claimed_settlement` writes it. -/
def ResponseAffinity.reschedule (now : Timestamp) (settlement : Settlement)
    (nextPollAt : Timestamp) (r : ResponseAffinity) : ResponseAffinity :=
  { r with
    settlementNextPollAt := some nextPollAt, settlement := some settlement,
    settlementLeaseUntil := none, updatedAt := max r.updatedAt now }

/-- `reschedule_claimed_settlement`; a row the `CHECK` refuses is a database error, and nothing
is written. -/
def rescheduleClaimedSettlement (now : Timestamp) (key : AffinityKey) (settlement : Settlement)
    (nextPollAt expected : Timestamp) (rows : AffinityTable) : AffinityTable :=
  if rows.all fun r => !r.leasedAs key expected ||
      (r.reschedule now settlement nextPollAt).ownerCheck then
    updateWhere (ResponseAffinity.leasedAs key expected)
      (ResponseAffinity.reschedule now settlement nextPollAt) rows
  else rows

/-- A visible row gives up its settlement. -/
def ResponseAffinity.settled (now : Timestamp) (r : ResponseAffinity) : ResponseAffinity :=
  { r with
    settlement := none, settlementNextPollAt := none, settlementLeaseUntil := none,
    updatedAt := now }

/-- Clear the settlement of the rows `p`: hidden rows are deleted, visible ones stay. -/
def clearSettlements (now : Timestamp) (p : ResponseAffinity → Bool) (rows : AffinityTable) :
    AffinityTable :=
  updateWhere (fun r => p r && r.deletedAt.isNone) (ResponseAffinity.settled now)
    (rows.filter fun r => !(p r && r.deletedAt.isSome))

def clearClaimedSettlement (now : Timestamp) (key : AffinityKey) (expected : Timestamp)
    (rows : AffinityTable) : AffinityTable :=
  clearSettlements now (ResponseAffinity.leasedAs key expected) rows

def ResponseAffinity.settles (tenantId billingRequest : Uuid) (r : ResponseAffinity) : Bool :=
  r.tenantId = tenantId && r.settlement.any fun s => s.billingRequest = billingRequest

def clearCompletedSettlements (now : Timestamp) (tenantId billingRequest : Uuid)
    (rows : AffinityTable) : AffinityTable :=
  clearSettlements now (ResponseAffinity.settles tenantId billingRequest) rows

end KeyCompute.Responses
