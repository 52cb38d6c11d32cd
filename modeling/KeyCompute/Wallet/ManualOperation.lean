import KeyCompute.Wallet.Ledger

/-!
# Manual wallet operations of administrators

`apply_admin_manual_operation` recharges, consumes, freezes or unfreezes by hand, under an
`Idempotency-Key`.  The hash of the key is the unique key of a **claim** row that is inserted first
and completed with the result in the same transaction, so no committed state has a pending claim.

`Desk` is the database with two ghost columns: the journal rows created by calls, and the completed
answers given, each with the key of its call.

`sha256Hex` is the hash function; nothing depends on it being free of collisions.
-/

namespace KeyCompute

open Relational Tables

/-! ## Requests and claims -/

structure ManualBalanceCommand where
  kind : ManualBalanceOperationKind
  userId : Uuid
  amount : ℚ
  reason : String
  idempotencyKey : String

/-- A checked request: the amount in column units and the reason without outer blanks. -/
structure ManualRequest where
  kind : ManualBalanceOperationKind
  principal : Principal
  actorUserId : Uuid
  amount : ℤ
  reason : String
  deriving DecidableEq

open ManualRequest

structure ManualBalanceOperationOutcome where
  operationId : Uuid
  operationType : ManualBalanceOperationKind
  tenantId : Uuid
  userId : Uuid
  actorUserId : Uuid
  amount : ℤ
  reason : String
  balanceTransactionId : Uuid
  balanceBefore : ℤ
  balanceAfter : ℤ
  frozenBalanceAfter : ℤ
  deriving DecidableEq

inductive ManualBalanceOperationDecision where
  | completed (outcome : ManualBalanceOperationOutcome)
  | conflict
  deriving DecidableEq

inductive ManualAttempt where
  | decision (d : ManualBalanceOperationDecision)
  | repairedFailure (e : DbError)

def ManualAttempt.answer : ManualAttempt → Except DbError ManualBalanceOperationDecision
  | decision d => .ok d
  | repairedFailure e => .error e

namespace ManualBalanceOperationKind

def asStr : ManualBalanceOperationKind → String
  | recharge => "recharge"
  | consume => "consume"
  | freeze => "freeze"
  | unfreeze => "unfreeze"

def transactionType : ManualBalanceOperationKind → TransactionType
  | recharge => .recharge
  | consume => .consume
  | freeze => .freeze
  | unfreeze => .unfreeze

end ManualBalanceOperationKind

/-- The value in units of `10⁻¹⁰`, if `round_dp(10)` leaves it as it is. -/
def decimalUnits? (amount : ℚ) : Option ℤ :=
  if (amount * 10 ^ 10).den = 1 then some (amount * 10 ^ 10).num else none

/-- `Decimal::normalize().to_string()` of a positive value in units of `10⁻¹⁰`. -/
def normalizedText (units : ℕ) : String :=
  let fraction := Nat.toDigits 10 (units % 10 ^ 10)
  let padded := List.replicate (10 - fraction.length) '0' ++ fraction
  let digits := (padded.reverse.dropWhile (· = '0')).reverse
  let whole := toString (units / 10 ^ 10)
  if digits = [] then whole else whole ++ "." ++ String.ofList digits

namespace ManualRequest

/-- `MAX_ADMIN_BALANCE_OPERATION_REASON_CHARS`. -/
def maxReasonChars : Nat := 1000

/-- `MAX_ADMIN_BALANCE_IDEMPOTENCY_KEY_BYTES`. -/
def maxKeyBytes : Nat := 256

def amountError : DbError :=
  .other "administrator balance operation amount must fit positive DECIMAL(20,10)"

/-- The amount check of `manual_balance_in_tx`. -/
def checkAmount (amount : ℚ) : Except DbError ℤ :=
  if amount ≤ 0 ∨ 10000000000 ≤ amount then .error amountError
  else
    match decimalUnits? amount with
    | some units => .ok units
    | none => .error amountError

/-- The reason checks of `manual_balance_in_tx`, on the trimmed text. -/
def checkReason (reason : String) : Except DbError String :=
  if reason = "" ∨ reason.toList.any Text.isControl then
    .error (.other "administrator balance operation reason must not be empty")
  else if maxReasonChars < reason.length then
    .error (.other
      s!"administrator balance operation reason must not exceed {maxReasonChars} characters")
  else .ok reason

/-- The key check of `manual_balance_in_tx`. -/
def checkKey (key : String) : Except DbError Unit :=
  if (Text.bytes key).isEmpty ∨ maxKeyBytes < (Text.bytes key).length ∨
      ¬ (Text.bytes key).all fun byte => 0x21 ≤ byte && byte ≤ 0x7e then
    .error (.other <|
      s!"administrator balance Idempotency-Key must contain between 1 and {maxKeyBytes} " ++
        "visible ASCII bytes")
  else .ok ()

/-- The checks of `manual_balance_in_tx` before it reads anything. -/
def ofCommand (scope : FinancialScope) (command : ManualBalanceCommand) :
    Except DbError ManualRequest := do
  let tenantId ← scope.tenantId
  let amount ← checkAmount command.amount
  let reason ← checkReason (Text.trim command.reason)
  checkKey command.idempotencyKey
  pure { kind := command.kind, principal := ⟨tenantId, command.userId⟩,
         actorUserId := scope.userId, amount, reason }

variable (sha256Hex : List UInt8 → String)

def hashField (field : List UInt8) : List UInt8 := beBytes 8 field.length ++ field

/-- `manual_balance_request_fingerprint`. -/
def fingerprint (r : ManualRequest) : String :=
  sha256Hex (hashField (Text.bytes "keycompute-admin-balance-operation-v1") ++
    hashField (Text.bytes r.kind.asStr) ++ hashField r.principal.tenantId.asBytes ++
    hashField r.principal.userId.asBytes ++ hashField r.actorUserId.asBytes ++
    hashField (Text.bytes (normalizedText r.amount.toNat)) ++ hashField (Text.bytes r.reason))

def claim (id : Uuid) (keyHash : String) (r : ManualRequest) : AdminBalanceOperation where
  id := id
  idempotencyKeyHash := keyHash
  requestFingerprint := r.fingerprint sha256Hex
  operationType := r.kind
  tenantId := r.principal.tenantId
  userId := r.principal.userId
  actorUserId := r.actorUserId
  amount := r.amount
  reason := r.reason
  result := none

end ManualRequest

namespace AdminBalanceOperation

def principal (o : AdminBalanceOperation) : Principal := ⟨o.tenantId, o.userId⟩

def MatchesRequest (sha256Hex : List UInt8 → String) (o : AdminBalanceOperation)
    (r : ManualRequest) : Prop :=
  o.requestFingerprint = r.fingerprint sha256Hex ∧ o.operationType = r.kind ∧
    o.tenantId = r.principal.tenantId ∧ o.userId = r.principal.userId ∧
    o.actorUserId = r.actorUserId ∧ o.amount = r.amount ∧ o.reason = r.reason

instance (sha256Hex : List UInt8 → String) (o : AdminBalanceOperation) (r : ManualRequest) :
    Decidable (o.MatchesRequest sha256Hex r) :=
  inferInstanceAs (Decidable (_ ∧ _))

/-- `AdminBalanceOperation::completed_outcome`; the result columns are present together, so its
errors for a partial result have no counterpart. -/
def completedOutcome (o : AdminBalanceOperation) : Option ManualBalanceOperationOutcome :=
  o.result.map fun result =>
    { operationId := o.id, operationType := o.operationType, tenantId := o.tenantId,
      userId := o.userId, actorUserId := o.actorUserId, amount := o.amount, reason := o.reason,
      balanceTransactionId := result.balanceTransactionId
      balanceBefore := result.balanceBefore
      balanceAfter := result.balanceAfter
      frozenBalanceAfter := result.frozenBalanceAfter }

/-- The journal row that the trigger `guard_manual_balance_identity` asks for. -/
def Posted (o : AdminBalanceOperation) (result : AdminBalanceResult) (x : BalanceTransaction) :
    Prop :=
  x.id = result.balanceTransactionId ∧ x.tenantId = o.tenantId ∧ x.userId = o.userId ∧
    x.transactionType = o.operationType.transactionType ∧ x.currency = "CNY" ∧
    (x.amount.natAbs : ℤ) = o.amount ∧ x.balanceBefore = result.balanceBefore ∧
    x.balanceAfter = result.balanceAfter

instance (o : AdminBalanceOperation) (result : AdminBalanceResult) (x : BalanceTransaction) :
    Decidable (o.Posted result x) :=
  inferInstanceAs (Decidable (_ ∧ _))

end AdminBalanceOperation

namespace Tables

variable (t : Tables)

def operation? (keyHash : String) : Option AdminBalanceOperation :=
  lookup AdminBalanceOperation.idempotencyKeyHash keyHash t.adminBalanceOperations

/-- `INSERT INTO admin_balance_operations … ON CONFLICT (idempotency_key_hash) DO NOTHING`. -/
def insertOperationIfAbsent (row : AdminBalanceOperation) : Tables :=
  { t with
    adminBalanceOperations :=
      insertIfAbsent AdminBalanceOperation.idempotencyKeyHash row t.adminBalanceOperations }

def insertOperation (row : AdminBalanceOperation) : Tables :=
  { t with adminBalanceOperations := t.adminBalanceOperations ++ [row] }

/-- `DELETE FROM admin_balance_operations WHERE p`. -/
def deleteOperations (p : AdminBalanceOperation → Bool) : Tables :=
  { t with adminBalanceOperations := t.adminBalanceOperations.filter fun o => !p o }

/-- `UPDATE admin_balance_operations SET result WHERE p`. -/
def completeOperations (p : AdminBalanceOperation → Bool) (result : AdminBalanceResult) : Tables :=
  { t with
    adminBalanceOperations :=
      updateWhere p (fun o => { o with result := some result }) t.adminBalanceOperations }

variable {t}

theorem insertOperationIfAbsent_of_some {row claim : AdminBalanceOperation}
    (found : t.operation? row.idempotencyKeyHash = some claim) :
    t.insertOperationIfAbsent row = t := by
  rw [operation?] at found
  rw [insertOperationIfAbsent, insertIfAbsent, found]

variable {row : AdminBalanceOperation}

theorem insertOperationIfAbsent_of_none (fresh : t.operation? row.idempotencyKeyHash = none) :
    t.insertOperationIfAbsent row = t.insertOperation row := by
  rw [operation?] at fresh
  rw [insertOperationIfAbsent, insertIfAbsent, fresh, insertOperation]

theorem operation?_insertOperation {keyHash : String} :
    (t.insertOperation row).operation? keyHash =
      (t.operation? keyHash).or (if row.idempotencyKeyHash = keyHash then some row else none) := by
  rw [operation?, insertOperation, lookup_append, lookup_singleton]
  rfl

theorem deleteOperations_insertOperation {p : AdminBalanceOperation → Bool} (hrow : p row)
    (hothers : ∀ o ∈ t.adminBalanceOperations, ¬ p o) :
    (t.insertOperation row).deleteOperations p = t := by
  have hfilter : (t.adminBalanceOperations ++ [row]).filter (fun o => !p o) =
      t.adminBalanceOperations := by simp_all
  rw [deleteOperations, insertOperation, hfilter]

end Tables

theorem Database.operation?_eq_some {db : Database} {keyHash : String}
    {o : AdminBalanceOperation} :
    db.operation? keyHash = some o ↔
      o ∈ db.adminBalanceOperations ∧ o.idempotencyKeyHash = keyHash :=
  lookup_eq_some db.valid.2.2.2.2.1.2.1

/-! ## The transaction -/

/-- The clock of the transaction and the keys it generates. -/
structure ManualTick where
  now : Timestamp
  operationId : Uuid
  transactionId : Uuid

namespace UserBalance

/-- The `match` on the kind of the operation. -/
def manualMove (tick : ManualTick) (r : ManualRequest) : DbTx (UserBalance × BalanceTransaction) :=
  match r.kind with
  | .recharge => rechargeInTx tick.transactionId r.principal r.amount none (some r.reason)
  | .consume => consumeInTx tick.now tick.transactionId r.principal r.amount none (some r.reason)
  | .freeze => freezeInTx tick.now tick.transactionId r.principal r.amount (some r.reason)
  | .unfreeze => unfreezeInTx tick.now tick.transactionId r.principal r.amount (some r.reason)

/-- `WHERE id = … AND tenant_id = … AND user_id = … AND actor_user_id = … AND completed_at IS
NULL`. -/
def pendingClaim (claim : AdminBalanceOperation) (r : ManualRequest) (o : AdminBalanceOperation) :
    Bool :=
  decide (o.id = claim.id ∧ o.principal = r.principal ∧ o.actorUserId = r.actorUserId ∧
    o.result = none)

/-- The update that completes the claim, with its trigger and its `RETURNING` row. -/
def completeClaim (tick : ManualTick) (claim : AdminBalanceOperation) (r : ManualRequest)
    (updated : UserBalance) (transaction : BalanceTransaction) : DbTx AdminBalanceOperation := do
  let result : AdminBalanceResult :=
    { balanceTransactionId := transaction.id, balanceBefore := transaction.balanceBefore,
      balanceAfter := transaction.balanceAfter, frozenBalanceAfter := updated.frozenBalance,
      completedAt := tick.now }
  let rows ← Tx.read (·.adminBalanceOperations.find? (pendingClaim claim r))
  let row ← Tx.okOr rows (.other s!"administrator balance operation {claim.id} was not completed")
  let posted ← Tx.read (·.balanceTransactions.any fun x => row.Posted result x)
  Tx.failIf (posted = false) (.databaseError "manual balance result must match its original ledger")
  exec (·.completeOperations (pendingClaim claim r) result)
  pure { row with result := some result }

def manualComplete (tick : ManualTick) (authority : Authority) (claim : AdminBalanceOperation)
    (r : ManualRequest) (out : UserBalance × BalanceTransaction) : DbTx ManualAttempt := do
  Tx.failIf (out.1.tenantId ≠ r.principal.tenantId ∨ out.2.tenantId ≠ r.principal.tenantId)
    (.other <| s!"user {r.principal.userId} balance belongs to tenant {out.1.tenantId}, " ++
      s!"not {r.principal.tenantId}")
  let completed ← completeClaim tick claim r out.1 out.2
  let outcome ← Tx.okOr completed.completedOutcome (.other
    s!"administrator balance operation {claim.id} has no completed result")
  checkAuthority authority.audit
  pure (.decision (.completed outcome))

/-- After an `unfreeze` that the manually frozen funds do not cover: the claim is taken back and
the expiry repair stays. -/
def manualRepair (authority : Authority) (claim : AdminBalanceOperation) (r : ManualRequest)
    (e : DbError) : DbTx ManualAttempt := do
  exec (·.deleteOperations (pendingClaim claim r))
  checkAuthority authority.audit
  pure (.repairedFailure e)

def manualApply (tick : ManualTick) (authority : Authority) (claim : AdminBalanceOperation)
    (r : ManualRequest) : DbTx ManualAttempt := do
  let moved ← Tx.attempt (manualMove tick r)
  match moved with
  | .ok out => manualComplete tick authority claim r out
  | .error e =>
    if r.kind = .unfreeze ∧ e.isInsufficientBalance then manualRepair authority claim r e
    else Tx.throw e

variable (sha256Hex : List UInt8 → String)

/-- The part of `manual_balance_in_tx` after the claim row was read. -/
def manualClaimed (tick : ManualTick) (authority : Authority) (keyHash : String)
    (r : ManualRequest) (claim : AdminBalanceOperation) : DbTx ManualAttempt :=
  if claim.idempotencyKeyHash ≠ keyHash then
    Tx.throw (.other "administrator balance idempotency claim key hash mismatch")
  else if ¬ claim.MatchesRequest sha256Hex r then pure (.decision .conflict)
  else
    match claim.completedOutcome with
    | some outcome => pure (.decision (.completed outcome))
    | none => manualApply tick authority claim r

def manualBalanceInTx (tick : ManualTick) (scope : FinancialScope) (authority : Authority)
    (command : ManualBalanceCommand) : DbTx ManualAttempt := do
  let r ← Tx.lift (ofCommand scope command)
  checkAuthority authority.lock
  let keyHash := sha256Hex (Text.bytes command.idempotencyKey)
  exec (·.insertOperationIfAbsent (r.claim sha256Hex tick.operationId keyHash))
  let found ← Tx.read fun db => (db.operation? keyHash).filter fun o =>
    o.principal = r.principal ∧ o.actorUserId = r.actorUserId
  match found with
  | none => pure (.decision .conflict)
  | some claim => manualClaimed sha256Hex tick authority keyHash r claim

/-- The body of `apply_admin_manual_operation`. -/
def manualBody (tick : ManualTick) (scope : FinancialScope) (authority : Authority)
    (command : ManualBalanceCommand) : DbTx ManualAttempt := do
  Tx.lift scope.requirePlatformTenant
  Tx.failIf command.userId.isNil (.other "financial_target_invalid")
  let attempt ← manualBalanceInTx sha256Hex tick scope authority command
  checkAuthority authority.finalActor
  pure attempt

def applyAdminManualOperation (tick : ManualTick) (scope : FinancialScope) (authority : Authority)
    (command : ManualBalanceCommand) (db : Database) :
    Except DbError ManualBalanceOperationDecision × Database :=
  match atomically (manualBody sha256Hex tick scope authority command) db with
  | (.ok attempt, db') => (attempt.answer, db')
  | (.error e, db') => (.error e, db')

/-! ## What a call can do -/

def keyHash (command : ManualBalanceCommand) : String :=
  sha256Hex (Text.bytes command.idempotencyKey)

/-- **Everything one call can do**, with its answer.  The claims that exist are completed. -/
inductive ManualEffect (tick : ManualTick) (scope : FinancialScope)
    (command : ManualBalanceCommand) (t : Tables) :
    Except DbError ManualBalanceOperationDecision → Tables → Prop where
  | refused (e : DbError) : ManualEffect tick scope command t (.error e) t
  | conflict {claim : AdminBalanceOperation}
      (found : t.operation? (keyHash sha256Hex command) = some claim)
      (differs : ∀ r, ofCommand scope command = .ok r →
        ¬ claim.MatchesRequest sha256Hex r) :
      ManualEffect tick scope command t (.ok .conflict) t
  | replayed {r : ManualRequest} {claim : AdminBalanceOperation}
      {outcome : ManualBalanceOperationOutcome}
      (request : ofCommand scope command = .ok r)
      (found : t.operation? (keyHash sha256Hex command) = some claim)
      (same : claim.MatchesRequest sha256Hex r)
      (completed : claim.completedOutcome = some outcome) :
      ManualEffect tick scope command t (.ok (.completed outcome)) t
  | repaired {r : ManualRequest} (e : DbError)
      (request : ofCommand scope command = .ok r)
      (fresh : t.operation? (keyHash sha256Hex command) = none) :
      ManualEffect tick scope command t (.error e) (t.reclaim [r.principal] tick.now)
  | applied {r : ManualRequest} {claim : AdminBalanceOperation} {x : BalanceTransaction}
      {outcome : ManualBalanceOperationOutcome} {t' : Tables}
      (request : ofCommand scope command = .ok r)
      (fresh : t.operation? (keyHash sha256Hex command) = none)
      (claimed : t'.adminBalanceOperations = t.adminBalanceOperations ++ [claim])
      (key : claim.idempotencyKeyHash = keyHash sha256Hex command)
      (same : claim.MatchesRequest sha256Hex r)
      (completed : claim.completedOutcome = some outcome)
      (posted : t'.balanceTransactions = t.balanceTransactions ++ [x])
      (row : outcome.balanceTransactionId = x.id) :
      ManualEffect tick scope command t (.ok (.completed outcome)) t'

theorem manualMove_posts {tick : ManualTick} {r : ManualRequest}
    {out : UserBalance × BalanceTransaction} {db db' : Database}
    (h : manualMove tick r db = (.ok out, db')) :
    db'.balanceTransactions = db.balanceTransactions ++ [out.2] ∧
      db'.adminBalanceOperations = db.adminBalanceOperations := by
  have hmoved {f : UserBalance → UserBalance} {type : TransactionType}
      {usageLogId : Option Uuid} {amount : ℤ} {db₁ : Database}
      (hreclaim : db₁.toTables = db.toTables.reclaim [r.principal] tick.now)
      (moved : Moved db₁.toTables r.principal f type none usageLogId amount out db'.toTables) :
      db'.balanceTransactions = db.balanceTransactions ++ [out.2] ∧
        db'.adminBalanceOperations = db.adminBalanceOperations := by
    rw [moved.tables, hreclaim]
    exact ⟨rfl, rfl⟩
  rw [manualMove] at h
  cases hkind : r.kind with
  | recharge =>
    rw [hkind] at h
    obtain ⟨-, -, -, htables⟩ := rechargeInTx_inversion h
    rw [htables]
    exact ⟨rfl, rfl⟩
  | consume =>
    rw [hkind] at h
    obtain ⟨db₁, hreclaim, moved⟩ := consumeInTx_unlogged h
    exact hmoved hreclaim moved
  | freeze =>
    rw [hkind] at h
    obtain ⟨db₁, hreclaim, moved⟩ := freezeInTx_inversion h
    exact hmoved hreclaim moved
  | unfreeze =>
    rw [hkind] at h
    rcases unfreezeInTx_cases h with ⟨e, he, -⟩ | ⟨db₁, hreclaim, hcase⟩
    · cases he
    · grind

theorem manualMove_insufficient {tick : ManualTick} {r : ManualRequest} {e : DbError}
    {db db' : Database} (kind : r.kind = .unfreeze) (insufficient : e.isInsufficientBalance)
    (h : manualMove tick r db = (.error e, db')) :
    db'.toTables = db.toTables.reclaim [r.principal] tick.now := by
  rw [manualMove, kind] at h
  rcases unfreezeInTx_cases h with ⟨e', he, hnot⟩ | ⟨db₁, hreclaim, hcase⟩
  · cases he
    rw [DbError.NotInsufficient, insufficient] at hnot
    cases hnot
  · grind

section Cases

variable {sha256Hex : List UInt8 → String} {tick : ManualTick} {scope : FinancialScope}
  {authority : Authority} {command : ManualBalanceCommand} {r : ManualRequest}
  {claim : AdminBalanceOperation} {db db₁ db' : Database}

theorem pendingClaim_of_settled {o : AdminBalanceOperation} (settled : o.result.isSome) :
    pendingClaim claim r o = false := by
  simp only [pendingClaim, decide_eq_false_iff_not]
  rintro ⟨-, -, -, hpending⟩
  rw [hpending] at settled
  cases settled

theorem completeClaim_inversion {updated : UserBalance} {x : BalanceTransaction}
    {ops : List AdminBalanceOperation} {completed : AdminBalanceOperation}
    (settled : ∀ o ∈ ops, o.result.isSome) (pending : pendingClaim claim r claim)
    (claims : db.adminBalanceOperations = ops ++ [claim])
    (h : completeClaim tick claim r updated x db = (.ok completed, db')) :
    (∃ result, completed = { claim with result := some result } ∧
      result.balanceTransactionId = x.id) ∧
      db'.adminBalanceOperations = ops ++ [completed] ∧
      db'.balanceTransactions = db.balanceTransactions := by
  have hnone : ∀ o ∈ ops, pendingClaim claim r o = false :=
    fun o member => pendingClaim_of_settled (settled o member)
  simp only [completeClaim, Tx.inv, exec_eq_ok] at h
  obtain ⟨_, rfl, row, hrow, _, -, _, -, _, _, hwrite,
    rfl, rfl⟩ := h
  have hfound : row = claim := by grind
  subst hfound
  refine ⟨⟨_, rfl, rfl⟩, ?_, by rw [hwrite]; rfl⟩
  rw [hwrite]
  show updateWhere _ _ db.adminBalanceOperations = _
  rw [claims, updateWhere, List.map_append]
  congr 1
  · exact updateWhere_of_forall_eq fun o member hpending => by
      rw [hnone o member] at hpending
      cases hpending
  · simp [pending]

theorem manualApply_fresh {attempt : ManualAttempt}
    (settled : ∀ o ∈ db.adminBalanceOperations, o.result.isSome)
    (request : ofCommand scope command = .ok r)
    (fresh : db.operation? (keyHash sha256Hex command) = none)
    (hclaim : claim = r.claim sha256Hex tick.operationId (keyHash sha256Hex command))
    (inserted : db₁.toTables = db.toTables.insertOperation claim)
    (h : manualApply tick authority claim r db₁ = (.ok attempt, db')) :
    ManualEffect sha256Hex tick scope command db.toTables attempt.answer db'.toTables := by
  have hpending : pendingClaim claim r claim := by
    subst hclaim
    simp [pendingClaim, claim, AdminBalanceOperation.principal]
  have hclaims : db₁.adminBalanceOperations = db.adminBalanceOperations ++ [claim] := by
    rw [inserted]
    rfl
  obtain ⟨moved, db₂, hmove, h⟩ := Tx.bind_eq_ok.mp h
  rw [Tx.attempt_eq_ok] at hmove
  cases moved with
  | ok out =>
    obtain ⟨hposted, hsame⟩ := manualMove_posts hmove
    simp only [manualComplete, Tx.inv, checkAuthority_eq_ok] at h
    obtain ⟨_, -, completed, db₃, hcomplete, outcome, houtcome, _, -, rfl, rfl⟩ := h
    obtain ⟨⟨result, rfl, hrow⟩, hcompleted, hjournal⟩ :=
      completeClaim_inversion settled hpending (hsame.trans hclaims) hcomplete
    have hposts : db₃.balanceTransactions = db.balanceTransactions ++ [out.2] := by
      rw [hjournal, hposted, inserted]
      rfl
    refine .applied request fresh hcompleted ?_ ?_ houtcome hposts ?_
    · rw [hclaim]
      rfl
    · rw [hclaim]
      exact ⟨rfl, rfl, rfl, rfl, rfl, rfl, rfl⟩
    · cases houtcome
      exact hrow
  | error e =>
    dsimp only at h
    by_cases hcase : r.kind = .unfreeze ∧ e.isInsufficientBalance
    · rw [if_pos hcase] at h
      simp only [manualRepair, Tx.inv, exec_eq_ok, checkAuthority_eq_ok] at h
      obtain ⟨_, db₃, hdelete, _, -, rfl, rfl⟩ := h
      have hreclaim := manualMove_insufficient hcase.1 hcase.2 hmove
      rw [hdelete, hreclaim, inserted]
      -- the claim is untouched by the reclamation, and it is the only pending one
      have hback : ((db.toTables.reclaim [r.principal] tick.now).insertOperation
          claim).deleteOperations (pendingClaim claim r) =
          db.toTables.reclaim [r.principal] tick.now :=
        deleteOperations_insertOperation hpending
          fun o member => by simp [pendingClaim_of_settled (settled o member)]
      change ManualEffect sha256Hex tick scope command db.toTables (.error e)
        (((db.toTables.reclaim [r.principal] tick.now).insertOperation
          claim).deleteOperations (pendingClaim claim r))
      rw [hback]
      exact .repaired e request fresh
    · rw [if_neg hcase] at h
      cases h

theorem not_matches_of_filter_eq_none
    (h : (some claim).filter (fun o => decide (o.principal = r.principal ∧
      o.actorUserId = r.actorUserId)) = none) : ¬ claim.MatchesRequest sha256Hex r := by
  rintro ⟨-, -, htenant, huser, hactor, -, -⟩
  have hprincipal : claim.principal = r.principal := by
    rw [AdminBalanceOperation.principal, htenant, huser]
  simp [hprincipal, hactor] at h

theorem manualBalanceInTx_cases {attempt : ManualAttempt}
    (settled : ∀ o ∈ db.adminBalanceOperations, o.result.isSome)
    (h : manualBalanceInTx sha256Hex tick scope authority command db = (.ok attempt, db')) :
    ManualEffect sha256Hex tick scope command db.toTables attempt.answer db'.toTables := by
  simp only [manualBalanceInTx, Tx.inv, checkAuthority_eq_ok, exec_eq_ok] at h
  obtain ⟨r, request, _, -, _, db₁, hinsert, found, hfound, h⟩ := h
  change db₁.toTables = db.toTables.insertOperationIfAbsent
    (r.claim sha256Hex tick.operationId (keyHash sha256Hex command)) at hinsert
  change (db₁.operation? (keyHash sha256Hex command)).filter _ = found at hfound
  cases hclaim : db.operation? (keyHash sha256Hex command) with
  | some claim =>
    -- the key was used before: the insert does nothing
    rw [insertOperationIfAbsent_of_some hclaim] at hinsert
    obtain rfl := Database.eq_of_tables hinsert
    rw [hclaim] at hfound
    have hdiffers (hnot : ¬ claim.MatchesRequest sha256Hex r) (r' : ManualRequest)
        (request' : ofCommand scope command = .ok r') :
        ¬ claim.MatchesRequest sha256Hex r' := by
      cases request.symm.trans request'
      exact hnot
    cases found with
    | none =>
      cases h
      exact .conflict hclaim (hdiffers (not_matches_of_filter_eq_none hfound))
    | some claim' =>
      cases (Option.filter_eq_some_iff.mp hfound).1
      obtain ⟨member, hkey⟩ := Database.operation?_eq_some.mp hclaim
      change manualClaimed sha256Hex tick authority (keyHash sha256Hex command) r claim db₁ = _
        at h
      rw [manualClaimed] at h
      rw [if_neg (not_not.mpr hkey)] at h
      by_cases hsame : claim.MatchesRequest sha256Hex r
      · rw [if_neg (not_not.mpr hsame)] at h
        obtain ⟨result, hresult⟩ := Option.isSome_iff_exists.mp (settled claim member)
        have hcompleted : claim.completedOutcome = some _ :=
          congrArg (Option.map _) hresult
        rw [hcompleted] at h
        cases h
        exact .replayed request hclaim hsame hcompleted
      · rw [if_pos hsame] at h
        cases h
        exact .conflict hclaim (hdiffers hsame)
  | none =>
    rw [insertOperationIfAbsent_of_none hclaim] at hinsert
    rw [hinsert, operation?_insertOperation, hclaim] at hfound
    have hrow : found = some (r.claim sha256Hex tick.operationId (keyHash sha256Hex command)) := by
      rw [← hfound]
      simp [claim, AdminBalanceOperation.principal]
    subst hrow
    -- the claim is its own: same key, same request, no result yet
    have hsame : (r.claim sha256Hex tick.operationId (keyHash sha256Hex command)).MatchesRequest
        sha256Hex r := ⟨rfl, rfl, rfl, rfl, rfl, rfl, rfl⟩
    change manualClaimed sha256Hex tick authority (keyHash sha256Hex command) r _ db₁ = _ at h
    have hkey : ¬ (r.claim sha256Hex tick.operationId
        (keyHash sha256Hex command)).idempotencyKeyHash ≠ keyHash sha256Hex command :=
      not_not.mpr rfl
    rw [manualClaimed, if_neg hkey, if_neg (not_not.mpr hsame)] at h
    exact manualApply_fresh settled request hclaim rfl hinsert h

theorem applyAdminManualOperation_cases
    {result : Except DbError ManualBalanceOperationDecision}
    (settled : ∀ o ∈ db.adminBalanceOperations, o.result.isSome)
    (h : applyAdminManualOperation sha256Hex tick scope authority command db = (result, db')) :
    ManualEffect sha256Hex tick scope command db.toTables result db'.toTables := by
  rw [applyAdminManualOperation] at h
  rcases hbody : atomically (manualBody sha256Hex tick scope authority command) db with
    ⟨e | attempt, db₁⟩
  · rw [hbody] at h
    cases h
    rw [atomically_error_state hbody]
    exact .refused e
  · rw [hbody] at h
    cases h
    have hok := atomically_eq_ok.mp hbody
    simp only [manualBody, Tx.inv, checkAuthority_eq_ok] at hok
    obtain ⟨_, -, _, -, _, _, hrun, _, -, rfl, rfl⟩ := hok
    exact manualBalanceInTx_cases settled hrun

/-- The checks that a call makes besides those of its request: the scope, the target and the
answers of the authority checks. -/
def Admitted (scope : FinancialScope) (authority : Authority) (command : ManualBalanceCommand) :
    Prop :=
  scope.access = .platformTenant ∧ command.userId.isNil = false ∧ authority.lock = none ∧
    authority.finalActor = none

/-- **Replay**: an admitted call whose request is that of the completed claim returns the
recorded outcome. -/
theorem applyAdminManualOperation_replay {outcome : ManualBalanceOperationOutcome}
    (admitted : Admitted scope authority command)
    (request : ofCommand scope command = .ok r)
    (found : db.operation? (keyHash sha256Hex command) = some claim)
    (same : claim.MatchesRequest sha256Hex r) (completed : claim.completedOutcome = some outcome) :
    applyAdminManualOperation sha256Hex tick scope authority command db =
      (.ok (.completed outcome), db) := by
  obtain ⟨hscope, htarget, hlock, hfinal⟩ := admitted
  have hprincipal : claim.principal = r.principal := by
    rw [AdminBalanceOperation.principal, same.2.2.1, same.2.2.2.1]
  have hselect : (db.operation? (keyHash sha256Hex command)).filter (fun o =>
      decide (o.principal = r.principal ∧ o.actorUserId = r.actorUserId)) = some claim := by
    rw [found]
    simp [hprincipal, same.2.2.2.2.1]
  have hclaimed : manualClaimed sha256Hex tick authority (keyHash sha256Hex command) r claim db =
      (.ok (.decision (.completed outcome)), db) := by
    rw [manualClaimed, if_neg (not_not.mpr (Database.operation?_eq_some.mp found).2),
      if_neg (not_not.mpr same), completed]
    rfl
  have hbody : manualBody sha256Hex tick scope authority command db =
      (.ok (.decision (.completed outcome)), db) := by
    simp only [manualBody, manualBalanceInTx, Tx.inv, checkAuthority_eq_ok, exec_eq_ok]
    refine ⟨(), by simp [FinancialScope.requirePlatformTenant, hscope], (), by simp [htarget],
      _, db,
      ⟨r, request, (), hlock, (), db, (insertOperationIfAbsent_of_some found).symm,
        some claim, hselect, hclaimed⟩, (), hfinal, rfl, rfl⟩
  rw [applyAdminManualOperation, atomically_eq_ok.mpr hbody]
  rfl

end Cases

end UserBalance

/-! ## The desk -/

structure ManualCall where
  tick : ManualTick
  scope : FinancialScope
  authority : Authority
  command : ManualBalanceCommand

def ManualCall.run (sha256Hex : List UInt8 → String) (c : ManualCall) (db : Database) :
    Except DbError ManualBalanceOperationDecision × Database :=
  UserBalance.applyAdminManualOperation sha256Hex c.tick c.scope c.authority c.command db

inductive DeskEvent where
  | manual (call : ManualCall) (ending : Ending)
  | wallet (call : WalletCall)
  | elsewhere (tables : Tables)

/-- Wallet calls do not write the table of claims. -/
def DeskEvent.Allowed : DeskEvent → Prop
  | wallet call => ¬ call.Acts .outside
  | _ => True

/-- The database, the journal rows created by manual calls and the completed answers given, each
with the key of its call. -/
structure Desk where
  db : Database
  created : List (String × BalanceTransaction)
  answers : List (String × ManualBalanceOperationOutcome)

open Desk

namespace Desk

def initial (db : Database) : Desk := ⟨db, [], []⟩

def answered : Ending → Except DbError ManualBalanceOperationDecision →
    List ManualBalanceOperationOutcome
  | .answered, .ok (.completed outcome) => [outcome]
  | _, _ => []

/-- The state after a manual call that moved the database to `db`. -/
def record (key : String) (answers : List ManualBalanceOperationOutcome) (db : Database)
    (s : Desk) : Desk where
  db := db
  created := s.created ++
    (db.balanceTransactions.drop s.db.balanceTransactions.length).map (key, ·)
  answers := s.answers ++ answers.map (key, ·)

def step (sha256Hex : List UInt8 → String) : DeskEvent → Desk → Desk
  | .manual call ending, s =>
    s.record call.command.idempotencyKey (answered ending (call.run sha256Hex s.db).1)
      (ending.state s.db (call.run sha256Hex s.db).2)
  | .wallet call, s => { s with db := call.step s.db }
  | .elsewhere tables, s =>
    { s with
      db := (atomically (exec fun t =>
        { tables.replaceElsewhere t with adminBalanceOperations := t.adminBalanceOperations })
        s.db).2 }

/-- **What holds at the desk at all times**: no claim is pending; the rows created under a key
are at most one, and then the key is claimed; every answer given is that of the claim. -/
structure Sound (sha256Hex : List UInt8 → String) (s : Desk) : Prop where
  settled : ∀ o ∈ s.db.adminBalanceOperations, o.result.isSome
  created : ∀ key, (s.created.filter fun c => c.1 = key).length ≤ 1
  claimed : ∀ c ∈ s.created, (s.db.operation? (sha256Hex (Text.bytes c.1))).isSome
  answers : ∀ a ∈ s.answers, ∃ claim, s.db.operation? (sha256Hex (Text.bytes a.1)) = some claim ∧
    claim.completedOutcome = some a.2

end Desk

section Desk

variable {sha256Hex : List UInt8 → String} {s : Desk} {db' : Database}

theorem Tables.operation?_congr {t t' : Tables} {keyHash : String}
    (h : t'.adminBalanceOperations = t.adminBalanceOperations) :
    t'.operation? keyHash = t.operation? keyHash := by
  rw [operation?, operation?, h]

variable {answers : List ManualBalanceOperationOutcome} {outcome : ManualBalanceOperationOutcome}

theorem AdminBalanceOperation.result_isSome {o : AdminBalanceOperation}
    (h : o.completedOutcome = some outcome) :
    o.result.isSome := by
  rw [completedOutcome, Option.map_eq_some_iff] at h
  obtain ⟨result, hresult, -⟩ := h
  rw [hresult]
  rfl

theorem Desk.Sound.frame (h : s.Sound sha256Hex)
    (claims : db'.adminBalanceOperations = s.db.adminBalanceOperations) :
    Sound sha256Hex { s with db := db' } where
  settled := by
    rw [claims]
    exact h.settled
  created := h.created
  claimed c member := by
    rw [operation?_congr claims]
    exact h.claimed c member
  answers a member := by
    rw [operation?_congr claims]
    exact h.answers a member

theorem Desk.Sound.record_same {key : String} (h : s.Sound sha256Hex)
    (claims : db'.adminBalanceOperations = s.db.adminBalanceOperations)
    (rows : db'.balanceTransactions = s.db.balanceTransactions)
    (hanswers : ∀ outcome ∈ answers, ∃ claim, s.db.operation? (sha256Hex (Text.bytes key)) =
      some claim ∧ claim.completedOutcome = some outcome) :
    (s.record key answers db').Sound sha256Hex := by
  have hcreated : (s.record key answers db').created = s.created := by
    simp [record, rows]
  refine ⟨(h.frame claims).settled, ?_, ?_, ?_⟩
  · rw [hcreated]
    exact h.created
  · rw [hcreated]
    exact (h.frame claims).claimed
  · intro a member
    rcases List.mem_append.mp member with hold | hnew
    · exact (h.frame claims).answers a hold
    · obtain ⟨outcome, houtcome, rfl⟩ := List.mem_map.mp hnew
      obtain ⟨claim, hclaim, hcompleted⟩ := hanswers outcome houtcome
      exact ⟨claim, (operation?_congr claims).trans hclaim, hcompleted⟩

theorem Desk.Sound.record_applied {key : String} {claim : AdminBalanceOperation}
    {x : BalanceTransaction} (h : s.Sound sha256Hex)
    (fresh : s.db.operation? (sha256Hex (Text.bytes key)) = none)
    (hkey : claim.idempotencyKeyHash = sha256Hex (Text.bytes key)) (hresult : claim.result.isSome)
    (claims : db'.adminBalanceOperations = s.db.adminBalanceOperations ++ [claim])
    (rows : db'.balanceTransactions = s.db.balanceTransactions ++ [x])
    (hanswers : ∀ outcome ∈ answers, claim.completedOutcome = some outcome) :
    (s.record key answers db').Sound sha256Hex := by
  have hoperation (keyHash : String) : db'.operation? keyHash = (s.db.operation? keyHash).or
      (if claim.idempotencyKeyHash = keyHash then some claim else none) :=
    (operation?_congr (t := s.db.toTables.insertOperation claim) claims).trans
      operation?_insertOperation
  have hnew : db'.operation? (sha256Hex (Text.bytes key)) = some claim := by
    rw [hoperation, fresh, hkey, if_pos rfl]
    rfl
  have hcreated : (s.record key answers db').created = s.created ++ [(key, x)] := by
    simp [record, rows]
  refine ⟨?_, ?_, ?_, ?_⟩
  · intro o member
    change o ∈ db'.adminBalanceOperations at member
    rw [claims] at member
    rcases List.mem_append.mp member with hold | hlast
    · exact h.settled o hold
    · rw [List.mem_singleton.mp hlast]
      exact hresult
  · intro key'
    rw [hcreated, List.filter_append, List.length_append]
    by_cases hkey' : key = key'
    · -- nothing was created under the key while it was free
      have hempty : s.created.filter (fun c => c.1 = key') = [] := by
        grind [List.filter_eq_nil_iff.mpr, Sound]
      simp [hempty, hkey']
    · have hrest := h.created key'
      simpa [hkey'] using hrest
  · intro c member
    rw [hcreated] at member
    change (db'.operation? _).isSome
    rw [hoperation]
    rcases List.mem_append.mp member with hold | hlast
    · simp [h.claimed c hold]
    · rw [List.mem_singleton.mp hlast]
      simp [hkey]
  · intro a member
    change ∃ claim, db'.operation? _ = some claim ∧ _
    rcases List.mem_append.mp member with hold | hlast
    · obtain ⟨claim', hclaim', hcompleted⟩ := h.answers a hold
      exact ⟨claim', by rw [hoperation, hclaim']; rfl, hcompleted⟩
    · obtain ⟨outcome, houtcome, rfl⟩ := List.mem_map.mp hlast
      exact ⟨claim, hnew, hanswers outcome houtcome⟩

theorem Desk.mem_answered {ending : Ending} {result : Except DbError ManualBalanceOperationDecision}
    (h : outcome ∈ answered ending result) :
    ending = .answered ∧ result = .ok (.completed outcome) := by
  unfold answered at h
  split at h
  · rw [List.mem_singleton.mp h]
    exact ⟨rfl, rfl⟩
  · cases h

open UserBalance in
theorem Desk.Sound.manual (h : s.Sound sha256Hex) (call : ManualCall) (ending : Ending) :
    (step sha256Hex (.manual call ending) s).Sound sha256Hex := by
  rcases hrun : call.run sha256Hex s.db with ⟨result, after⟩
  have heffect := applyAdminManualOperation_cases h.settled hrun
  rw [step, hrun]
  by_cases hlost : ending = .lost false
  · subst hlost
    refine h.record_same rfl rfl fun outcome member => ?_
    cases (mem_answered member).1
  have hafter : ending.state s.db after = after := by
    cases ending with
    | answered => rfl
    | lost committed =>
      cases committed with
      | false => exact absurd rfl hlost
      | true => rfl
  rw [hafter]
  generalize htables : after.toTables = t' at heffect
  cases heffect with
  | refused | conflict =>
    refine h.record_same (by rw [htables]) (by rw [htables]) fun outcome member => ?_
    cases (mem_answered member).2
  | replayed request found same completed =>
    refine h.record_same (by rw [htables]) (by rw [htables]) fun outcome member => ?_
    cases (mem_answered member).2
    exact ⟨_, found, completed⟩
  | repaired e request fresh =>
    refine h.record_same (by rw [htables]; rfl) (by rw [htables]; rfl) fun outcome member => ?_
    cases (mem_answered member).2
  | applied request fresh claimed key same completed posted row =>
    refine h.record_applied fresh key (AdminBalanceOperation.result_isSome completed)
      (by rw [htables, claimed]) (by rw [htables, posted]) fun outcome member => ?_
    cases (mem_answered member).2
    exact completed

theorem Desk.Sound.step {e : DeskEvent} (allowed : e.Allowed) (h : s.Sound sha256Hex) :
    (step sha256Hex e s).Sound sha256Hex := by
  cases e with
  | manual call ending => exact h.manual call ending
  | wallet call => exact h.frame ((call.steps s.db).sameElsewhere allowed).adminBalanceOperations
  | elsewhere tables =>
    refine h.frame (atomically_rel (R := fun before after : Database =>
      after.adminBalanceOperations = before.adminBalanceOperations) rfl fun _ db' hexec => ?_)
    rw [exec_eq_ok.mp hexec]

/-- **Exactly once per key**, in one state of the desk and for every next call.  At most one
journal row was created under a key, and all completed answers under it are the same.  A call
whose request is that of the completed claim changes nothing; when it is admitted it returns
the recorded outcome, which is the one answered before, and otherwise an error.  A call whose
request is not that of the claim is answered with a conflict or an error and changes nothing.
A call that does not complete leaves all claims and the whole journal as they were. -/
structure ManualOnce (sha256Hex : List UInt8 → String) (s : Desk) : Prop where
  at_most_one : ∀ key, (s.created.filter fun c => c.1 = key).length ≤ 1
  one_outcome : ∀ key o₁ o₂, (key, o₁) ∈ s.answers → (key, o₂) ∈ s.answers → o₁ = o₂
  replay : ∀ (c : ManualCall) r claim, ManualRequest.ofCommand c.scope c.command = .ok r →
    s.db.operation? (UserBalance.keyHash sha256Hex c.command) = some claim →
    claim.MatchesRequest sha256Hex r → ∃ outcome, claim.completedOutcome = some outcome ∧
      (∀ o, (c.command.idempotencyKey, o) ∈ s.answers → o = outcome) ∧
      (c.run sha256Hex s.db).2 = s.db ∧
      ((c.run sha256Hex s.db).1 = .ok (.completed outcome) ∨
        ¬ UserBalance.Admitted c.scope c.authority c.command ∧
          ∃ e, (c.run sha256Hex s.db).1 = .error e)
  mismatch : ∀ (c : ManualCall) claim,
    s.db.operation? (UserBalance.keyHash sha256Hex c.command) = some claim →
    (∀ r, ManualRequest.ofCommand c.scope c.command = .ok r → ¬ claim.MatchesRequest sha256Hex r) →
    (c.run sha256Hex s.db).2 = s.db ∧
      ((c.run sha256Hex s.db).1 = .ok .conflict ∨ ∃ e, (c.run sha256Hex s.db).1 = .error e)
  failure : ∀ c : ManualCall, (∀ outcome, (c.run sha256Hex s.db).1 ≠ .ok (.completed outcome)) →
    (c.run sha256Hex s.db).2.adminBalanceOperations = s.db.adminBalanceOperations ∧
      (c.run sha256Hex s.db).2.balanceTransactions = s.db.balanceTransactions

open UserBalance in
/-- A call under a key that is claimed leaves the database alone; it replays the claim, meets a
conflict or is refused. -/
theorem ManualCall.claimed {db : Database} {claim : AdminBalanceOperation}
    (settled : ∀ o ∈ db.adminBalanceOperations, o.result.isSome) (c : ManualCall)
    (found : db.operation? (keyHash sha256Hex c.command) = some claim) :
    (c.run sha256Hex db).2 = db ∧
      ((∃ e, (c.run sha256Hex db).1 = .error e) ∨
        ((c.run sha256Hex db).1 = .ok .conflict ∧ ∀ r,
          ofCommand c.scope c.command = .ok r → ¬ claim.MatchesRequest sha256Hex r) ∨
        ∃ r outcome, ofCommand c.scope c.command = .ok r ∧
          claim.MatchesRequest sha256Hex r ∧ claim.completedOutcome = some outcome ∧
          (c.run sha256Hex db).1 = .ok (.completed outcome)) := by
  rcases hrun : c.run sha256Hex db with ⟨result, after⟩
  have heffect := applyAdminManualOperation_cases settled hrun
  have hunused (fresh : db.operation? (keyHash sha256Hex c.command) = none) : False := by
    rw [fresh] at found
    cases found
  generalize htables : after.toTables = t' at heffect
  cases heffect with
  | refused e => exact ⟨Database.eq_of_tables htables, .inl ⟨e, rfl⟩⟩
  | conflict found' differs => grind [Database.eq_of_tables]
  | replayed request found' same completed =>
    cases found.symm.trans found'
    exact ⟨Database.eq_of_tables htables, .inr (.inr ⟨_, _, request, same, completed, rfl⟩)⟩
  | repaired e request fresh | applied request fresh => exact (hunused fresh).elim

open UserBalance in
theorem ManualCall.failed {db : Database}
    (settled : ∀ o ∈ db.adminBalanceOperations, o.result.isSome) (c : ManualCall)
    (h : ∀ outcome, (c.run sha256Hex db).1 ≠ .ok (.completed outcome)) :
    (c.run sha256Hex db).2.adminBalanceOperations = db.adminBalanceOperations ∧
      (c.run sha256Hex db).2.balanceTransactions = db.balanceTransactions := by
  rcases hrun : c.run sha256Hex db with ⟨result, after⟩
  rw [hrun] at h
  have heffect := applyAdminManualOperation_cases settled hrun
  change after.toTables.adminBalanceOperations = _ ∧ after.toTables.balanceTransactions = _
  generalize after.toTables = t' at heffect ⊢
  cases heffect with
  | refused | conflict => exact ⟨rfl, rfl⟩
  | replayed => exact absurd rfl (h _)
  | repaired => exact ⟨rfl, rfl⟩
  | applied => exact absurd rfl (h _)

open UserBalance in
/-- **Administrator operations are exactly-once per key**, in every state of every interleaving
of manual calls with any arguments, refusals and lost answers, wallet calls, and writes to other
tables. -/
theorem manual_exactly_once (sha256Hex : List UInt8 → String) (db : Database)
    (settled : ∀ o ∈ db.adminBalanceOperations, o.result.isSome) (events : List DeskEvent)
    (allowed : ∀ e ∈ events, e.Allowed) :
    ManualOnce sha256Hex (runAll (Desk.step sha256Hex) events (Desk.initial db)) := by
  have hinitial : (Desk.initial db).Sound sha256Hex :=
    ⟨settled, by simp [Desk.initial], by simp [Desk.initial], by simp [Desk.initial]⟩
  have h : (runAll (Desk.step sha256Hex) events (Desk.initial db)).Sound sha256Hex :=
    runAll_invariant_of (I := Desk.Sound sha256Hex)
      (fun e s hallowed => Desk.Sound.step (e := e) hallowed) events _ allowed hinitial
  generalize runAll (Desk.step sha256Hex) events (Desk.initial db) = s at h
  refine ⟨h.created, ?_, ?_, ?_, ?_⟩
  · intro key o₁ o₂ h₁ h₂
    obtain ⟨claim₁, hclaim₁, hcompleted₁⟩ := h.answers _ h₁
    obtain ⟨claim₂, hclaim₂, hcompleted₂⟩ := h.answers _ h₂
    cases hclaim₁.symm.trans hclaim₂
    exact Option.some.inj (hcompleted₁.symm.trans hcompleted₂)
  · intro c r claim request found same
    obtain ⟨hdb, hanswer⟩ := c.claimed h.settled found
    have hresult := h.settled claim (Database.operation?_eq_some.mp found).1
    obtain ⟨outcome, hcompleted⟩ : ∃ outcome, claim.completedOutcome = some outcome :=
      Option.isSome_iff_exists.mp (by rwa [AdminBalanceOperation.completedOutcome,
        Option.isSome_map])
    refine ⟨outcome, hcompleted, ?_, hdb, ?_⟩
    · intro o member
      obtain ⟨claim', hclaim', hcompleted'⟩ := h.answers _ member
      cases hclaim'.symm.trans found
      exact Option.some.inj (hcompleted'.symm.trans hcompleted)
    · by_cases hadmitted : Admitted c.scope c.authority c.command
      · left
        exact congrArg Prod.fst
          (applyAdminManualOperation_replay hadmitted request found same hcompleted)
      · grind
  · intro c claim found hdiffers
    obtain ⟨hdb, hanswer⟩ := c.claimed h.settled found
    rcases hanswer with herror | ⟨hconflict, -⟩ | ⟨r, outcome, request, same, -⟩
    · exact ⟨hdb, .inr herror⟩
    · exact ⟨hdb, .inl hconflict⟩
    · exact absurd same (hdiffers r request)
  · intro c hnot
    exact c.failed h.settled hnot

/-- A stand-in for the hash: the bytes themselves. -/
def plainDigest (bytes : List UInt8) : String :=
  String.ofList (bytes.map fun byte => Char.ofNat byte.toNat)

/-- A platform administrator recharges the member of `freshTenant`. -/
def sampleManual (kind : ManualBalanceOperationKind) (amount : ℚ) (lock : Option DbError)
    (operationId transactionId : Uuid) : ManualCall where
  tick := ⟨5, operationId, transactionId⟩
  scope := ⟨99, .platformTenant, some 1⟩
  authority := ⟨lock, none, none, none⟩
  command := ⟨kind, 10, amount, " correction ", "key-1"⟩

/-- A refused attempt, one whose answer is lost after the commit, a retry, a conflicting request
under the same key, and a wallet call. -/
def sampleDesk : List DeskEvent :=
  [.manual (sampleManual .recharge 2 (some denied) 200 1000) .answered,
    .manual (sampleManual .recharge 2 none 201 1001) (.lost true),
    .manual (sampleManual .recharge 2 none 202 1002) .answered,
    .manual (sampleManual .freeze 2 none 203 1003) .answered,
    .wallet (.recharge 1004 ⟨1, 10⟩ 7 none none)]

theorem sampleDesk_allowed : ∀ e ∈ sampleDesk, e.Allowed := by
  intro e member
  simp only [sampleDesk, List.mem_cons, List.not_mem_nil, or_false] at member
  rcases member with rfl | rfl | rfl | rfl | rfl
  · trivial
  · trivial
  · trivial
  · trivial
  · rintro ⟨⟩

theorem manual_exactly_once_sampleDesk :
    (runAll (Desk.step plainDigest) sampleDesk (Desk.initial freshTenant)).created.map
        (fun c => (c.1, c.2.id)) = [("key-1", 1001)] ∧
      ManualOnce plainDigest (runAll (Desk.step plainDigest) sampleDesk
        (Desk.initial freshTenant)) :=
  ⟨by decide +kernel, manual_exactly_once plainDigest freshTenant (by decide) sampleDesk
    sampleDesk_allowed⟩

/-- The request of `sampleManual`, checked. -/
def sampleRequest : ManualRequest := ⟨.recharge, ⟨1, 10⟩, 99, 20000000000, "correction"⟩

/-- **A matching call need not return the recorded outcome**: the key is claimed and completed by
the same request, and the retry is refused because the authority check fails. -/
theorem manual_replay_refused :
    ManualRequest.ofCommand (sampleManual .recharge 2 (some denied) 204 1005).scope
        (sampleManual .recharge 2 (some denied) 204 1005).command = .ok sampleRequest ∧
      ((runAll (Desk.step plainDigest) sampleDesk (Desk.initial freshTenant)).db.operation?
        (UserBalance.keyHash plainDigest
          (sampleManual .recharge 2 (some denied) 204 1005).command)).any (fun claim =>
          claim.MatchesRequest plainDigest sampleRequest ∧ claim.completedOutcome.isSome) = true ∧
      ((sampleManual .recharge 2 (some denied) 204 1005).run plainDigest
        (runAll (Desk.step plainDigest) sampleDesk (Desk.initial freshTenant)).db).1 =
          .error denied :=
  ⟨by decide +kernel, by decide +kernel, by decide +kernel⟩

end Desk

end KeyCompute
