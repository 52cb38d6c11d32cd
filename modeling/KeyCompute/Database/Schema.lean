import KeyCompute.Database.Value
import KeyCompute.Relational.Table

/-!
# The financial part of the schema

The tables that hold money and the identity tables their foreign keys point at, column by column as
`migrations/001_init.sql` declares them.  Columns that no modelled function reads or writes are left
out.

**Constraints are part of a database value.**  `Tables.Valid` collects the unique indexes, `CHECK`s
and foreign keys, and a `Database` is a `Tables` with a proof of it: a row that PostgreSQL would
refuse cannot be in one, so a later proof reads uniqueness off the value it has.
-/

namespace KeyCompute

open Relational

/-! ## Identity rows -/

structure Tenant where
  id : Uuid
  active : Bool
  deriving DecidableEq

structure User where
  id : Uuid
  active : Bool
  deriving DecidableEq

inductive MembershipStatus where
  | active | suspended | removed
  deriving DecidableEq

structure TenantMembership where
  tenantId : Uuid
  userId : Uuid
  status : MembershipStatus
  deriving DecidableEq

structure UsageLog where
  id : Uuid
  requestId : Uuid
  tenantId : Uuid
  userId : Uuid
  userAmount : ℤ
  currency : String
  deriving DecidableEq

structure Node where
  id : Uuid
  tenantId : Uuid
  ownerUserId : Uuid
  deriving DecidableEq

/-- A node task; `succeeded` says whether its status is `'succeeded'`. -/
structure NodeTask where
  requestId : Uuid
  tenantId : Uuid
  userId : Uuid
  succeeded : Bool
  assignedNodeId : Option Uuid
  deriving DecidableEq

/-- The rows the financial functions only read.  `nodeTipRatio` is the value of that system
setting: absent, unreadable as a decimal (`some none`), or a decimal. -/
structure Reference where
  tenants : List Tenant
  users : List User
  memberships : List TenantMembership
  usageLogs : List UsageLog
  nodes : List Node
  nodeTasks : List NodeTask
  nodeTipRatio : Option (Option ℚ)
  deriving DecidableEq

def TenantMembership.principal (m : TenantMembership) : Principal := ⟨m.tenantId, m.userId⟩

/-! ## Financial rows -/

structure UserBalance where
  tenantId : Uuid
  userId : Uuid
  availableBalance : ℤ
  frozenBalance : ℤ
  totalRecharged : ℤ
  totalConsumed : ℤ
  deriving DecidableEq

def UserBalance.principal (b : UserBalance) : Principal := ⟨b.tenantId, b.userId⟩

/-- The row an `INSERT` of `(tenant_id, user_id)` alone makes. -/
def UserBalance.zero (p : Principal) : UserBalance := ⟨p.tenantId, p.userId, 0, 0, 0, 0⟩

inductive ReservationStatus where
  | active | settled | released | expired
  deriving DecidableEq

inductive ReleaseKind where
  | automatic | administrative
  deriving DecidableEq

structure BalanceReservation where
  requestId : Uuid
  ownerToken : Uuid
  tenantId : Uuid
  userId : Uuid
  amount : ℤ
  status : ReservationStatus
  usageLogId : Option Uuid
  expiresAt : Timestamp
  settledAt : Option Timestamp
  releasedAt : Option Timestamp
  releaseKind : Option ReleaseKind
  releaseReason : Option String
  releasedBy : Option Uuid
  deriving DecidableEq

def BalanceReservation.principal (r : BalanceReservation) : Principal := ⟨r.tenantId, r.userId⟩

inductive TransactionType where
  | recharge | consume | freeze | unfreeze | tipCredit
  deriving DecidableEq

structure BalanceTransaction where
  id : Uuid
  tenantId : Uuid
  userId : Uuid
  orderId : Option Uuid
  usageLogId : Option Uuid
  transactionType : TransactionType
  amount : ℤ
  balanceBefore : ℤ
  balanceAfter : ℤ
  currency : String
  description : Option String
  deriving DecidableEq

def BalanceTransaction.principal (t : BalanceTransaction) : Principal := ⟨t.tenantId, t.userId⟩

inductive ManualBalanceOperationKind where
  | recharge | consume | freeze | unfreeze
  deriving DecidableEq

/-- The result columns of an administrator operation.  The schema has them all null or all
present, so they are one optional value. -/
structure AdminBalanceResult where
  balanceTransactionId : Uuid
  balanceBefore : ℤ
  balanceAfter : ℤ
  frozenBalanceAfter : ℤ
  completedAt : Timestamp
  deriving DecidableEq

structure AdminBalanceOperation where
  id : Uuid
  idempotencyKeyHash : String
  requestFingerprint : String
  operationType : ManualBalanceOperationKind
  tenantId : Uuid
  userId : Uuid
  actorUserId : Uuid
  amount : ℤ
  reason : String
  result : Option AdminBalanceResult
  deriving DecidableEq

inductive PaymentOrderStatus where
  | pending | paid | failed | closed
  deriving DecidableEq

inductive PaymentMethod where
  | alipay | wechatPay
  deriving DecidableEq

structure PaymentOrder where
  id : Uuid
  tenantId : Uuid
  userId : Uuid
  outTradeNo : String
  tradeNo : Option String
  providerTradeNo : Option String
  amount : ℤ
  status : PaymentOrderStatus
  paymentMethod : PaymentMethod
  paidAt : Option Timestamp
  closedAt : Option Timestamp
  expiredAt : Timestamp
  notifyData : Option String
  deriving DecidableEq

inductive NotificationStatus where
  | received | processed
  deriving DecidableEq

structure PaymentNotification where
  paymentMethod : PaymentMethod
  providerEventId : String
  orderId : Option Uuid
  outTradeNo : String
  processingStatus : NotificationStatus
  payloadDigest : String
  processedAt : Option Timestamp
  deriving DecidableEq

/-- The unique key `(payment_method, provider_event_id)`. -/
def PaymentNotification.key (n : PaymentNotification) : PaymentMethod × String :=
  (n.paymentMethod, n.providerEventId)

/-- A node earning; `tipRatio` is the `DECIMAL(5, 4)` column in units of `10⁻⁴`. -/
structure NodeTip where
  id : Uuid
  tenantId : Uuid
  usageLogId : Uuid
  nodeId : Uuid
  ownerUserId : Uuid
  consumerUserId : Uuid
  tipAmount : ℤ
  currency : String
  tipRatio : ℤ
  billAmount : ℤ
  deriving DecidableEq

inductive WithdrawalType where
  | alipay | balance
  deriving DecidableEq

inductive WithdrawalStatus where
  | pending | approved | completed | rejected
  deriving DecidableEq

structure NodeTipWithdrawal where
  id : Uuid
  tenantId : Uuid
  ownerUserId : Uuid
  requestId : Uuid
  requestFingerprint : String
  withdrawalType : WithdrawalType
  totalAmount : ℤ
  currency : String
  encryptedAlipayAccount : Option String
  encryptedRealName : Option String
  status : WithdrawalStatus
  adminId : Option Uuid
  adminRemark : Option String
  payoutReference : Option String
  balanceTransactionId : Option Uuid
  revision : ℤ
  actionedAt : Option Timestamp
  completedAt : Option Timestamp
  deriving DecidableEq

/-- The unique key `(tenant_id, owner_user_id, request_id)`. -/
def NodeTipWithdrawal.key (w : NodeTipWithdrawal) : Uuid × Uuid × Uuid :=
  (w.tenantId, w.ownerUserId, w.requestId)

/-! ## Row checks -/

/-- `ck_user_balances_*`. -/
def UserBalance.Check (b : UserBalance) : Prop :=
  0 ≤ b.frozenBalance ∧ 0 ≤ b.totalRecharged ∧ 0 ≤ b.totalConsumed

/-- `ck_balance_reservations_release_audit`. -/
def BalanceReservation.ReleaseAudit (r : BalanceReservation) : Prop :=
  (r.status = .released →
    r.releasedAt.isSome ∧ r.releaseKind.isSome ∧
      ∃ reason ∈ r.releaseReason, Text.btrim reason ≠ "" ∧ (Text.btrim reason).length ≤ 1000) ∧
  (r.status ≠ .released →
    r.releasedAt = none ∧ r.releaseKind = none ∧ r.releaseReason = none ∧ r.releasedBy = none)

/-- `ck_balance_reservations_settlement_audit`. -/
def BalanceReservation.SettlementAudit (r : BalanceReservation) : Prop :=
  (r.status = .settled → r.usageLogId.isSome ∧ r.settledAt.isSome) ∧
  (r.status ≠ .settled → r.usageLogId = none ∧ r.settledAt = none)

def BalanceReservation.Check (r : BalanceReservation) : Prop :=
  0 ≤ r.amount ∧ r.ReleaseAudit ∧ r.SettlementAudit

/-- The checks of `admin_balance_operations`: a positive amount and a nonnegative frozen
balance in the result. -/
def AdminBalanceOperation.Check (o : AdminBalanceOperation) : Prop :=
  0 < o.amount ∧ ∀ result ∈ o.result, 0 ≤ result.frozenBalanceAfter

def NodeTip.Check (t : NodeTip) : Prop :=
  0 < t.tipAmount ∧ 0 < t.tipRatio ∧ t.tipRatio ≤ 10000 ∧ 0 < t.billAmount ∧
    t.tipAmount ≤ t.billAmount

/-- `ck_tip_withdrawal_payload`. -/
def NodeTipWithdrawal.PayloadCheck (w : NodeTipWithdrawal) : Prop :=
  (w.withdrawalType = .balance →
    w.encryptedAlipayAccount = none ∧ w.encryptedRealName = none ∧ w.payoutReference = none ∧
      w.adminId = none ∧ (w.status = .pending ∨ w.status = .completed) ∧
      (w.status = .completed ↔ w.balanceTransactionId.isSome)) ∧
  (w.withdrawalType = .alipay →
    w.encryptedAlipayAccount.isSome ∧ w.encryptedRealName.isSome ∧
      w.balanceTransactionId = none ∧ (w.status = .completed ↔ w.payoutReference.isSome) ∧
      (w.status = .pending ∨ w.adminId.isSome))

def NodeTipWithdrawal.Check (w : NodeTipWithdrawal) : Prop :=
  0 < w.totalAmount ∧ w.currency = "CNY" ∧ 0 < w.revision ∧ w.PayloadCheck ∧
    (w.status = .completed ↔ w.completedAt.isSome)

instance (b : UserBalance) : Decidable b.Check := inferInstanceAs (Decidable (_ ∧ _))

instance (r : BalanceReservation) : Decidable r.ReleaseAudit :=
  inferInstanceAs (Decidable ((_ → _) ∧ (_ → _)))

instance (r : BalanceReservation) : Decidable r.SettlementAudit :=
  inferInstanceAs (Decidable ((_ → _) ∧ (_ → _)))

instance (r : BalanceReservation) : Decidable r.Check := inferInstanceAs (Decidable (_ ∧ _))

instance (o : AdminBalanceOperation) : Decidable o.Check := inferInstanceAs (Decidable (_ ∧ _))

instance (t : NodeTip) : Decidable t.Check := inferInstanceAs (Decidable (_ ∧ _))

instance (w : NodeTipWithdrawal) : Decidable w.PayloadCheck :=
  inferInstanceAs (Decidable ((_ → _) ∧ (_ → _)))

instance (w : NodeTipWithdrawal) : Decidable w.Check := inferInstanceAs (Decidable (_ ∧ _))

/-! ## Tables and their constraints -/

/-- The membership rows that foreign keys `(tenant_id, user_id)` point at. -/
def Reference.principals (ref : Reference) : List Principal :=
  ref.memberships.map TenantMembership.principal

/-- Primary and foreign keys of the identity tables, and the one current tenant a user has. -/
def Reference.Valid (ref : Reference) : Prop :=
  (ref.tenants.map Tenant.id).Nodup ∧ (ref.users.map User.id).Nodup ∧
  ref.principals.Nodup ∧
  ((ref.memberships.filter (·.status ≠ .removed)).map TenantMembership.userId).Nodup ∧
  (∀ m ∈ ref.memberships, m.tenantId ∈ ref.tenants.map Tenant.id ∧
    m.userId ∈ ref.users.map User.id) ∧
  (ref.usageLogs.map UsageLog.id).Nodup ∧ (ref.usageLogs.map UsageLog.requestId).Nodup ∧
  (ref.nodes.map Node.id).Nodup ∧ (ref.nodeTasks.map NodeTask.requestId).Nodup

structure Tables where
  reference : Reference
  userBalances : List UserBalance
  balanceReservations : List BalanceReservation
  balanceTransactions : List BalanceTransaction
  adminBalanceOperations : List AdminBalanceOperation
  paymentOrders : List PaymentOrder
  paymentNotifications : List PaymentNotification
  nodeTips : List NodeTip
  nodeTipWithdrawals : List NodeTipWithdrawal

/-- The partial unique index `uk_balance_transactions_recharge_order`. -/
def BalanceTransaction.rechargeOrder (t : BalanceTransaction) : Option Uuid :=
  if t.transactionType = .recharge then t.orderId else none

/-- The partial unique index `uk_balance_transactions_consume_usage_log`. -/
def BalanceTransaction.consumeUsageLog (t : BalanceTransaction) : Option Uuid :=
  if t.transactionType = .consume then t.usageLogId else none

/-- The partial unique index `uk_payment_orders_provider_trade_no`. -/
def PaymentOrder.providerTrade (o : PaymentOrder) : Option (PaymentMethod × String) :=
  o.providerTradeNo.map fun no => (o.paymentMethod, no)

namespace Tables

variable (t : Tables)

def UserBalancesValid : Prop :=
  (t.userBalances.map UserBalance.principal).Nodup ∧
  ∀ b ∈ t.userBalances, b.Check ∧ b.principal ∈ t.reference.principals

def BalanceReservationsValid : Prop :=
  (t.balanceReservations.map BalanceReservation.requestId).Nodup ∧
  (t.balanceReservations.filterMap BalanceReservation.usageLogId).Nodup ∧
  ∀ r ∈ t.balanceReservations, r.Check ∧ r.principal ∈ t.reference.principals ∧
    ∀ log ∈ r.usageLogId, log ∈ t.reference.usageLogs.map UsageLog.id

def BalanceTransactionsValid : Prop :=
  (t.balanceTransactions.map BalanceTransaction.id).Nodup ∧
  (t.balanceTransactions.filterMap BalanceTransaction.rechargeOrder).Nodup ∧
  (t.balanceTransactions.filterMap BalanceTransaction.consumeUsageLog).Nodup ∧
  ∀ x ∈ t.balanceTransactions, x.principal ∈ t.reference.principals ∧
    (∀ order ∈ x.orderId, order ∈ t.paymentOrders.map PaymentOrder.id) ∧
    ∀ log ∈ x.usageLogId, log ∈ t.reference.usageLogs.map UsageLog.id

def AdminBalanceOperationsValid : Prop :=
  (t.adminBalanceOperations.map AdminBalanceOperation.id).Nodup ∧
  (t.adminBalanceOperations.map AdminBalanceOperation.idempotencyKeyHash).Nodup ∧
  ∀ o ∈ t.adminBalanceOperations, o.Check ∧ ⟨o.tenantId, o.userId⟩ ∈ t.reference.principals ∧
    ∀ result ∈ o.result, (o.tenantId, o.userId, result.balanceTransactionId) ∈
      t.balanceTransactions.map fun x => (x.tenantId, x.userId, x.id)

def PaymentOrdersValid : Prop :=
  (t.paymentOrders.map PaymentOrder.id).Nodup ∧
  (t.paymentOrders.map PaymentOrder.outTradeNo).Nodup ∧
  (t.paymentOrders.filterMap PaymentOrder.providerTrade).Nodup ∧
  ∀ o ∈ t.paymentOrders, ⟨o.tenantId, o.userId⟩ ∈ t.reference.principals

def PaymentNotificationsValid : Prop :=
  (t.paymentNotifications.map PaymentNotification.key).Nodup ∧
  ∀ n ∈ t.paymentNotifications, ∀ order ∈ n.orderId, order ∈ t.paymentOrders.map PaymentOrder.id

def NodeTipsValid : Prop :=
  (t.nodeTips.map NodeTip.id).Nodup ∧ (t.nodeTips.map NodeTip.usageLogId).Nodup ∧
  ∀ x ∈ t.nodeTips, x.Check ∧ ⟨x.tenantId, x.ownerUserId⟩ ∈ t.reference.principals ∧
    (x.tenantId, x.usageLogId, x.consumerUserId) ∈
      (t.reference.usageLogs.map fun u => (u.tenantId, u.id, u.userId)) ∧
    (x.tenantId, x.nodeId, x.ownerUserId) ∈
      t.reference.nodes.map fun n => (n.tenantId, n.id, n.ownerUserId)

def NodeTipWithdrawalsValid : Prop :=
  (t.nodeTipWithdrawals.map NodeTipWithdrawal.id).Nodup ∧
  (t.nodeTipWithdrawals.map NodeTipWithdrawal.key).Nodup ∧
  ∀ w ∈ t.nodeTipWithdrawals, w.Check ∧ ⟨w.tenantId, w.ownerUserId⟩ ∈ t.reference.principals ∧
    ∀ transaction ∈ w.balanceTransactionId, (w.tenantId, w.ownerUserId, transaction) ∈
      t.balanceTransactions.map fun x => (x.tenantId, x.userId, x.id)

def Valid : Prop :=
  t.reference.Valid ∧ t.UserBalancesValid ∧ t.BalanceReservationsValid ∧
  t.BalanceTransactionsValid ∧ t.AdminBalanceOperationsValid ∧ t.PaymentOrdersValid ∧
  t.PaymentNotificationsValid ∧ t.NodeTipsValid ∧ t.NodeTipWithdrawalsValid

instance : Decidable t.reference.Valid := inferInstanceAs (Decidable (_ ∧ _))
instance : Decidable t.UserBalancesValid := inferInstanceAs (Decidable (_ ∧ _))
instance : Decidable t.BalanceReservationsValid := inferInstanceAs (Decidable (_ ∧ _))
instance : Decidable t.BalanceTransactionsValid := inferInstanceAs (Decidable (_ ∧ _))
instance : Decidable t.AdminBalanceOperationsValid := inferInstanceAs (Decidable (_ ∧ _))
instance : Decidable t.PaymentOrdersValid := inferInstanceAs (Decidable (_ ∧ _))
instance : Decidable t.PaymentNotificationsValid := inferInstanceAs (Decidable (_ ∧ _))
instance : Decidable t.NodeTipsValid := inferInstanceAs (Decidable (_ ∧ _))
instance : Decidable t.NodeTipWithdrawalsValid := inferInstanceAs (Decidable (_ ∧ _))
instance : Decidable t.Valid := inferInstanceAs (Decidable (_ ∧ _))

end Tables

/-- **A database**: tables that meet every constraint of the schema. -/
structure Database extends Tables where
  valid : toTables.Valid

end KeyCompute
