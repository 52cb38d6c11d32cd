import KeyCompute.Wallet.Reservation

/-!
# Node earnings

A tip is credited to the owner of the node that served a request, once per usage log, and is never
changed afterwards.  `create_from_usage_log` (`keycompute-db/src/models/node_tip.rs`) first asks
outside of any transaction whether there is something to credit.

Tips are grouped into **purses**: a tenant, an owner and a currency.  The pending amount of a purse
is the sum of its tips less its withdrawals that were not rejected.
-/

namespace KeyCompute

open Relational

/-- The owner of tips and withdrawals, and their currency. -/
structure Purse where
  owner : Principal
  currency : String
  deriving DecidableEq

def NodeTip.purse (x : NodeTip) : Purse := ⟨⟨x.tenantId, x.ownerUserId⟩, x.currency⟩

def NodeTipWithdrawal.purse (w : NodeTipWithdrawal) : Purse :=
  ⟨⟨w.tenantId, w.ownerUserId⟩, w.currency⟩

/-- `node_tip::currency`. -/
def tipCurrency (value : String) : Except DbError String :=
  let value := String.ofList ((Text.trim value).toList.map Char.toUpper)
  if (Text.bytes value).length ≠ 3 ∨
      ¬ (Text.bytes value).all fun b => 0x41 ≤ b && b ≤ 0x5a then
    .error (.other "tip_currency_invalid")
  else .ok value

/-- `Decimal::round_dp(10)` of an amount in units of `10⁻¹⁰`: the nearest unit, a tie to the
even one. -/
def roundHalfEven (q : ℚ) : ℤ :=
  if q - ⌊q⌋ < 1 / 2 then ⌊q⌋
  else if 1 / 2 < q - ⌊q⌋ then ⌊q⌋ + 1
  else if ⌊q⌋ % 2 = 0 then ⌊q⌋ else ⌊q⌋ + 1

/-- The rounding of a nonnegative decimal to a column, a tie away from zero. -/
def roundHalfUp (q : ℚ) : ℤ := ⌊q + 1 / 2⌋

/-! ## `summary` -/

structure NodeTipSummary where
  pendingAmount : ℤ
  reservedAmount : ℤ
  withdrawnAmount : ℤ
  totalAmount : ℤ
  pendingCount : Nat

def FinancialScope.ownerPredicate (scope : FinancialScope) (owner : Uuid) : Bool :=
  decide (scope.access = .personal → owner = scope.userId)

namespace NodeTip

/-- The row of the aggregate query of `summary`. -/
def summaryRow (scope : FinancialScope) (tenantId : Uuid) (money : String) (t : Tables) :
    NodeTipSummary :=
  let credit (x : NodeTip) : Bool :=
    decide (x.tenantId = tenantId ∧ x.currency = money) && scope.ownerPredicate x.ownerUserId
  let withdrawal (w : NodeTipWithdrawal) : Bool :=
    decide (w.tenantId = tenantId ∧ w.currency = money) && scope.ownerPredicate w.ownerUserId
  let amount := totalWhere credit NodeTip.tipAmount t.nodeTips
  let reserved := totalWhere (fun w => withdrawal w && (w.status = .pending ∨ w.status = .approved))
    NodeTipWithdrawal.totalAmount t.nodeTipWithdrawals
  let paid := totalWhere (fun w => withdrawal w && w.status = .completed)
    NodeTipWithdrawal.totalAmount t.nodeTipWithdrawals
  { pendingAmount := amount - reserved - paid
    reservedAmount := reserved
    withdrawnAmount := paid
    totalAmount := amount
    pendingCount := t.nodeTips.countP credit }

/-- `NodeTip::summary`; `allowed` is the answer of the authority predicate of its query. -/
def summary (allowed : Bool) (scope : FinancialScope) (money : String) : DbTx NodeTipSummary := do
  let tenantId ← Tx.lift scope.tenantId
  let money ← Tx.lift (tipCurrency money)
  Tx.failIf (allowed = false) denied
  let row ← Tx.read fun db => summaryRow scope tenantId money db.toTables
  Tx.failIf (row.pendingAmount < 0) (.other "tip_ledger_inconsistent")
  pure row

end NodeTip

/-! ## `create_from_usage_log` -/

def NodeTask.serves (task : NodeTask) (u : UsageLog) : Bool :=
  decide (task.requestId = u.requestId ∧ task.tenantId = u.tenantId ∧ task.userId = u.userId)

namespace Tables

variable (t : Tables)

/-- `SELECT … FROM node_tips WHERE usage_log_id = …`. -/
def tip? (usageLogId : Uuid) : Option NodeTip := lookup NodeTip.usageLogId usageLogId t.nodeTips

def insertTip (row : NodeTip) : Tables := { t with nodeTips := t.nodeTips ++ [row] }

/-- `INSERT INTO node_tips … ON CONFLICT(usage_log_id) DO NOTHING`. -/
def insertTipIfAbsent (row : NodeTip) : Tables :=
  { t with nodeTips := insertIfAbsent NodeTip.usageLogId row t.nodeTips }

theorem insertTipIfAbsent_cases (row : NodeTip) :
    t.insertTipIfAbsent row = t ∨ t.insertTipIfAbsent row = t.insertTip row := by
  unfold insertTipIfAbsent insertIfAbsent insertTip
  cases lookup NodeTip.usageLogId row.usageLogId t.nodeTips with
  | some old => exact .inl rfl
  | none => exact .inr rfl

end Tables

namespace NodeTip

/-- The first query of `create_from_usage_log`. -/
def candidate (tenantId usageLogId : Uuid) (t : Tables) : Bool :=
  t.reference.usageLogs.any fun u =>
    decide (u.id = usageLogId ∧ u.tenantId = tenantId) &&
    (t.reference.nodeTasks.any fun task =>
      task.serves u && task.succeeded && task.assignedNodeId.isSome) &&
    !(t.nodeTips.any fun credited => credited.tenantId = u.tenantId ∧ credited.usageLogId = u.id)

def acceptedWork (tenantId usageLogId : Uuid) (t : Tables) : Option (UsageLog × Node) :=
  (t.reference.usageLogs.filter fun u => u.id = usageLogId ∧ u.tenantId = tenantId).findSome?
    fun u => (t.reference.nodeTasks.filter fun task => task.serves u && task.succeeded).findSome?
      fun task => (t.reference.nodes.find? fun n =>
        task.assignedNodeId = some n.id ∧ n.tenantId = u.tenantId).map (u, ·)

/-- The setting `node_tip_ratio`, `0.90` when absent. -/
def tipRatioSetting : Option (Option ℚ) → Option ℚ
  | none => some (9 / 10)
  | some value => value

/-- The insert, which returns the row unless the usage log has its tip already. -/
def insertCredit (row : NodeTip) : DbTx (Option NodeTip) := do
  let old ← Tx.read (·.tip? row.usageLogId)
  exec (·.insertTipIfAbsent row)
  pure (if old.isSome then none else some row)

/-- The credit for accepted work of somebody else's node. -/
def creditNode (id tenantId usageLogId : Uuid) (u : UsageLog) (n : Node) :
    DbTx (Option NodeTip) := do
  let money ← Tx.lift (tipCurrency u.currency)
  let setting ← Tx.read (·.reference.nodeTipRatio)
  let ratio ← Tx.okOr (tipRatioSetting setting) (.other "tip_ratio_invalid")
  Tx.failIf (ratio < 0 ∨ 1 < ratio) (.other "tip_ratio_invalid")
  let tip := roundHalfEven (u.userAmount * ratio)
  if u.userAmount ≤ 0 ∨ tip ≤ 0 then pure none
  else
    insertCredit
      { id, tenantId, usageLogId, nodeId := n.id, ownerUserId := n.ownerUserId,
        consumerUserId := u.userId, tipAmount := tip, currency := money,
        tipRatio := roundHalfUp (ratio * 10000), billAmount := u.userAmount }

def createFromUsageLogInTx (id tenantId usageLogId : Uuid) : DbTx (Option NodeTip) := do
  let tenant ← Tx.read (·.tenant? tenantId)
  let _ ← Tx.okOr tenant (.notFound "Tenant" (toString tenantId))
  let row ← Tx.read fun db => acceptedWork tenantId usageLogId db.toTables
  match row with
  | none => pure none
  | some (u, n) =>
    if u.userId = n.ownerUserId then pure none else creditNode id tenantId usageLogId u n

/-- `NodeTip::create_from_usage_log`, without interruption after its first query. -/
def createFromUsageLog (id tenantId usageLogId : Uuid) (db : Database) :
    Except DbError (Option NodeTip) × Database :=
  if candidate tenantId usageLogId db.toTables then
    atomically (createFromUsageLogInTx id tenantId usageLogId) db
  else (.ok none, db)

/-- **Everything `create_from_usage_log` can do**: one more tip, or nothing. -/
theorem createFromUsageLogInTx_cases {id tenantId usageLogId : Uuid} {out : Option NodeTip}
    {db db' : Database} (h : createFromUsageLogInTx id tenantId usageLogId db = (.ok out, db')) :
    db'.toTables = db.toTables ∨ ∃ row, db'.toTables = db.toTables.insertTip row := by
  simp only [createFromUsageLogInTx, Tx.inv] at h
  obtain ⟨_, -, _, -, work, -, h⟩ := h
  match work with
  | none =>
    cases h
    exact .inl rfl
  | some (u, n) =>
    dsimp only at h
    split at h
    · cases h
      exact .inl rfl
    simp only [creditNode, Tx.inv] at h
    obtain ⟨money, -, _, -, ratio, -, _, -, h⟩ := h
    split at h
    · cases h
      exact .inl rfl
    simp only [insertCredit, Tx.inv, exec_eq_ok] at h
    obtain ⟨_, -, _, _, hwrite, -, rfl⟩ := h
    rw [hwrite]
    exact (Tables.insertTipIfAbsent_cases _ _).imp_right fun hrow => ⟨_, hrow⟩

end NodeTip

end KeyCompute
