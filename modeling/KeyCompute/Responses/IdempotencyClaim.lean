import KeyCompute.Database.Value
import KeyCompute.Json.Value
import KeyCompute.Relational.Table
import KeyCompute.Relational.Transaction

/-!
# Idempotency claims of the Responses API

A claim is the permanent identity of one `Idempotency-Key` of a tenant.  The holder of its execution
token may start the paid upstream call once; a crash before that leaves a lease that may be taken
over, a crash after it leaves the claim fenced for good.

The operations are those of `keycompute-db/src/models/responses_idempotency_claim.rs`.  `NOW()` is
an argument, the five columns of a cached response are one option, and the columns no operation
looks at travel as the claim's details.
-/

namespace KeyCompute.Responses

open Relational (Tx atomically lookup updateWhere)

/-- `RESPONSES_IDEMPOTENCY_MAX_RESPONSE_BODY_BYTES`. -/
def maxResponseBodyBytes : ℕ := 96 * 1024 * 1024

/-- `RESPONSES_IDEMPOTENCY_MAX_IDENTITIES_PER_TENANT`. -/
def maxIdentitiesPerTenant : ℕ := 100000

inductive ExecutionState where
  | inProgress | completed | expired
  deriving DecidableEq

structure CachedResponse where
  status : ℤ
  headers : JsonValue
  body : String
  bodyBytes : ℕ
  expiresAt : Timestamp

/-- What a claim records of its request besides its identity. -/
structure ClaimDetails where
  produceAiKeyId : Uuid
  provider : String
  model : Option String
  createdAt : Timestamp

/-- `ResponsesIdempotencyClaim`. -/
structure Claim where
  tenantId : Uuid
  bindingId : String
  requestFingerprint : String
  billingRequestId : Uuid
  userId : Uuid
  accountId : Uuid
  details : ClaimDetails
  executionState : ExecutionState
  executionToken : Uuid
  leaseExpiresAt : Timestamp
  upstreamDispatchedAt : Option Timestamp
  response : Option CachedResponse
  completedAt : Option Timestamp

def Claim.key (c : Claim) : Uuid × String := (c.tenantId, c.bindingId)

/-- A row of `tenants`, as far as claims concern it. -/
structure ClaimTenant where
  id : Uuid
  responsesIdempotencyClaimCount : ℤ

structure ClaimStore where
  tenants : List ClaimTenant
  /-- `tenant_memberships`, which a claim refers to. -/
  memberships : List (Uuid × Uuid)
  claims : List Claim

/-! ## Statements -/

namespace ClaimStore

def find (s : ClaimStore) (tenantId : Uuid) (bindingId : String) : Option Claim :=
  lookup Claim.key (tenantId, bindingId) s.claims

def tenant (s : ClaimStore) (tenantId : Uuid) : Option ClaimTenant :=
  lookup ClaimTenant.id tenantId s.tenants

/-- `UPDATE responses_idempotency_claims SET f WHERE p`. -/
def update (s : ClaimStore) (p : Claim → Bool) (f : Claim → Claim) : ClaimStore :=
  { s with claims := updateWhere p f s.claims }

/-- `rows_affected()` of a statement `WHERE p`. -/
def affected (s : ClaimStore) (p : Claim → Bool) : ℕ := (s.claims.filter p).length

/-- `UPDATE tenants SET responses_idempotency_claim_count = … + change WHERE p`. -/
def addToCount (s : ClaimStore) (p : ClaimTenant → Bool) (change : ℤ) : ClaimStore :=
  { s with
    tenants := updateWhere p
      (fun t => { t with
        responsesIdempotencyClaimCount := t.responsesIdempotencyClaimCount + change }) s.tenants }

end ClaimStore

/-- The update of a tenant's counter, which must meet exactly one row. -/
def changeCount (p : ClaimTenant → Bool) (change : ℤ) (failure : String) :
    Tx ClaimStore DbError Unit := do
  let updated ← Tx.read fun s => (s.tenants.filter p).length
  Tx.failIf (updated ≠ 1) (.other failure)
  Tx.modify fun s => s.addToCount p change

/-- The `WHERE` clause shared by the operations of a holder: the claim is in progress under the
caller's token. -/
def Claim.heldBy (tenantId : Uuid) (bindingId : String) (executionToken : Uuid) (c : Claim) :
    Bool :=
  c.tenantId = tenantId ∧ c.bindingId = bindingId ∧ c.executionState = .inProgress ∧
    c.executionToken = executionToken

/-- `upstream_dispatched_at IS NOT NULL`. -/
def Claim.dispatched (c : Claim) : Bool := c.upstreamDispatchedAt.isSome

/-- The rows of a holder that has not started its upstream call. -/
def Claim.unstartedBy (tenantId : Uuid) (bindingId : String) (executionToken : Uuid) (c : Claim) :
    Bool :=
  c.heldBy tenantId bindingId executionToken && !c.dispatched

/-- The rows of a holder that has started its upstream call. -/
def Claim.startedBy (tenantId : Uuid) (bindingId : String) (executionToken : Uuid) (c : Claim) :
    Bool :=
  c.heldBy tenantId bindingId executionToken && c.dispatched

/-- An execution whose lease ran out before its upstream call was started. -/
def Claim.reclaimable (now : Timestamp) (tenantId : Uuid) (bindingId : String) (c : Claim) : Bool :=
  c.tenantId = tenantId ∧ c.bindingId = bindingId ∧ c.executionState = .inProgress ∧
    c.dispatched = false ∧ c.leaseExpiresAt ≤ now

/-! ## Operations -/

structure BindRequest where
  tenantId : Uuid
  bindingId : String
  requestFingerprint : String
  billingRequestId : Uuid
  userId : Uuid
  accountId : Uuid
  details : ClaimDetails
  executionToken : Uuid
  leaseExpiresAt : Timestamp

/-- The row a bind inserts; the other columns have their defaults. -/
def BindRequest.claim (r : BindRequest) : Claim where
  tenantId := r.tenantId
  bindingId := r.bindingId
  requestFingerprint := r.requestFingerprint
  billingRequestId := r.billingRequestId
  userId := r.userId
  accountId := r.accountId
  details := r.details
  executionState := .inProgress
  executionToken := r.executionToken
  leaseExpiresAt := r.leaseExpiresAt
  upstreamDispatchedAt := none
  response := none
  completedAt := none

/-- The `INSERT … ON CONFLICT (tenant_id, binding_id) DO NOTHING`, with the constraints of the
table, and the increment of the counter if a row was inserted. -/
def insertClaim (r : BindRequest) : Tx ClaimStore DbError Bool := do
  let existing ← Tx.read fun s => s.find r.tenantId r.bindingId
  if existing.isSome then pure false
  else do
    let store ← Tx.read id
    Tx.failIf (store.claims.any fun c => c.billingRequestId = r.billingRequestId)
      (.databaseError "uk_responses_idempotency_claims_billing")
    Tx.failIf ((r.tenantId, r.userId) ∉ store.memberships)
      (.databaseError "fk_responses_idempotency_claims_membership")
    Tx.modify fun s => { s with claims := s.claims ++ [r.claim] }
    changeCount (fun t => t.id = r.tenantId) 1 "idempotency identity counter update failed"
    pure true

/-- `bind_for_execution_metadata_with_identity_quota`. -/
def bindForExecution (r : BindRequest) (maxIdentities : ℕ) :
    Tx ClaimStore DbError (Claim × Bool) := do
  let usage ← Tx.read fun s => s.tenant r.tenantId
  let usage ← Tx.okOr usage (.notFound "Tenant" (toString r.tenantId))
  let existing ← Tx.read fun s => s.find r.tenantId r.bindingId
  match existing with
  | some claim => pure (claim, false)
  | none => do
    let limit : ℕ := min maxIdentities maxIdentitiesPerTenant
    Tx.failIf ((limit : ℤ) ≤ usage.responsesIdempotencyClaimCount)
      (.resourceLimitExceeded "Responses idempotency identities"
        s!"{limit} entries per tenant")
    let inserted ← insertClaim r
    let claim ← Tx.read fun s => s.find r.tenantId r.bindingId
    let claim ← Tx.okOr claim (.other "idempotency claim disappeared")
    pure (claim, inserted)

def reclaimExpiredExecution (now : Timestamp) (tenantId : Uuid) (bindingId : String)
    (executionToken : Uuid) (leaseExpiresAt : Timestamp) (s : ClaimStore) :
    Option Claim × ClaimStore :=
  let p := Claim.reclaimable now tenantId bindingId
  let s' := s.update p fun c => { c with executionToken, leaseExpiresAt }
  if s.affected p = 0 then (none, s') else (s'.find tenantId bindingId, s')

def markExecutionDispatched (now : Timestamp) (tenantId : Uuid) (bindingId : String)
    (executionToken : Uuid) (s : ClaimStore) : Bool × ClaimStore :=
  let p := Claim.unstartedBy tenantId bindingId executionToken
  (s.affected p = 1, s.update p fun c => { c with upstreamDispatchedAt := some now })

def releaseExecution (now : Timestamp) (tenantId : Uuid) (bindingId : String)
    (executionToken : Uuid) (s : ClaimStore) : Bool × ClaimStore :=
  let p := Claim.unstartedBy tenantId bindingId executionToken
  (s.affected p = 1, s.update p fun c => { c with leaseExpiresAt := now })

def expireDispatchedExecution (now : Timestamp) (tenantId : Uuid) (bindingId : String)
    (executionToken : Uuid) (s : ClaimStore) : Bool × ClaimStore :=
  let p := Claim.startedBy tenantId bindingId executionToken
  (s.affected p = 1, s.update p fun c =>
    { c with executionState := .expired, completedAt := some now, leaseExpiresAt := now })

def deleteUnstartedExecution (tenantId : Uuid) (bindingId : String) (executionToken : Uuid) :
    Tx ClaimStore DbError Bool := do
  let tenant ← Tx.read fun s => s.tenant tenantId
  match tenant with
  | none => pure false
  | some _ => do
    let p := Claim.unstartedBy tenantId bindingId executionToken
    let deleted ← Tx.read fun s => s.affected p
    Tx.modify fun s => { s with claims := s.claims.filter fun c => !p c }
    if deleted = 1 then do
      changeCount (fun t => t.id = tenantId ∧ 0 < t.responsesIdempotencyClaimCount) (-1)
        "idempotency identity counter decrement failed"
      pure true
    else pure false

/-- The columns of a cached response are cleared and the claim expires. -/
def Claim.expire (c : Claim) : Claim := { c with executionState := .expired, response := none }

def expireCompletedResponses (now : Timestamp) (s : ClaimStore) : ℕ × ClaimStore :=
  let p : Claim → Bool := fun c => c.executionState = .completed ∧
    c.response.any fun response => response.expiresAt ≤ now
  (s.affected p, s.update p Claim.expire)

/-! ## Completion and eviction -/

def Claim.bodyBytes (c : Claim) : ℕ := (c.response.map CachedResponse.bodyBytes).getD 0

/-- The order of the window: the new response first, then the latest. -/
def replayBefore (bindingId : String) (a b : Claim) : Bool :=
  if a.bindingId = bindingId ∨ b.bindingId = bindingId then a.bindingId = bindingId
  else if a.completedAt = b.completedAt then b.bindingId ≤ a.bindingId
  else b.completedAt.getD 0 ≤ a.completedAt.getD 0

def ClaimStore.ranked (s : ClaimStore) (tenantId : Uuid) (bindingId : String) : List Claim :=
  (s.claims.filter fun c => c.tenantId = tenantId ∧ c.executionState = .completed).mergeSort
    (replayBefore bindingId)

/-- The responses beyond the quotas, after `rank` responses of `cumulative` bytes. -/
def evicted (maxEntries maxBytes : ℕ) : ℕ → ℕ → List Claim → List Claim
  | _, _, [] => []
  | rank, cumulative, c :: rest =>
    let beyond := evicted maxEntries maxBytes (rank + 1) (cumulative + c.bodyBytes) rest
    if maxEntries < rank + 1 ∨ maxBytes < cumulative + c.bodyBytes then c :: beyond else beyond

def ClaimStore.evict (s : ClaimStore) (tenantId : Uuid) (bindingId : String)
    (maxEntries maxBytes : ℕ) : ClaimStore :=
  let victims := (evicted maxEntries maxBytes 0 0 (s.ranked tenantId bindingId)).map Claim.bindingId
  s.update (fun c => c.tenantId = tenantId ∧ c.bindingId ∈ victims) Claim.expire

/-- What a holder hands in when its execution is complete. -/
structure Completion where
  tenantId : Uuid
  bindingId : String
  executionToken : Uuid
  status : ℤ
  headers : JsonValue
  body : String
  responseExpiresAt : Timestamp
  maxEntries : ℕ
  maxBytes : ℕ

/-- The response fits the quotas by itself. -/
def Completion.replayable (c : Completion) : Bool :=
  0 < c.maxEntries ∧ c.body.utf8ByteSize ≤ c.maxBytes ∧
    c.body.utf8ByteSize ≤ maxResponseBodyBytes

def Completion.response (c : Completion) : CachedResponse where
  status := c.status
  headers := c.headers
  body := c.body
  bodyBytes := c.body.utf8ByteSize
  expiresAt := c.responseExpiresAt

def Completion.finishes (r : Completion) : Claim → Bool :=
  Claim.startedBy r.tenantId r.bindingId r.executionToken

/-- `complete_execution_with_quota`.  The quotas are read as `i64`, and the `CHECK` of the table
refuses a status outside `100..599`. -/
def completeExecutionWithQuota (now : Timestamp) (r : Completion) : Tx ClaimStore DbError Bool := do
  Tx.failIf (2 ^ 63 ≤ r.maxEntries) (.other "idempotency replay entry quota overflow")
  Tx.failIf (2 ^ 63 ≤ r.maxBytes) (.other "idempotency replay byte quota overflow")
  Tx.failIf (2 ^ 63 ≤ r.body.utf8ByteSize) (.other "idempotency response body size overflow")
  let tenant ← Tx.read fun s => s.tenant r.tenantId
  let _ ← Tx.okOr tenant (.notFound "Tenant" (toString r.tenantId))
  let updated ← Tx.read fun s => s.affected r.finishes
  if r.replayable then
    if updated = 0 then pure false
    else do
      Tx.failIf (¬ (100 ≤ r.status ∧ r.status ≤ 599))
        (.databaseError "ck_responses_idempotency_claims_state")
      Tx.modify fun s => s.update r.finishes fun c =>
        { c with
          executionState := .completed, response := some r.response,
          completedAt := some now, leaseExpiresAt := now }
      Tx.modify fun s => s.evict r.tenantId r.bindingId r.maxEntries r.maxBytes
      pure true
  else do
    Tx.modify fun s => s.update r.finishes fun c =>
      { c with
        executionState := .expired, response := none, completedAt := some now,
        leaseExpiresAt := now }
    pure (updated = 1)

end KeyCompute.Responses
