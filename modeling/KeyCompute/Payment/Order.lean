import KeyCompute.Wallet.Ledger

/-!
# Payment orders

An order is created `pending` and leaves that status once: `credit_paid` makes it `paid` together
with the recharge of its wallet, the other calls end it without a credit.  A verified provider event
reaches `credit_paid` as a **notification**, bound to the order and the digest of its payload when
it is first accepted.

Runs also make wallet calls that do not credit an order, and write unrelated tables.
-/

namespace KeyCompute

open Relational

/-! ## Rows -/

def PaymentOrderStatus.asStr : PaymentOrderStatus → String
  | pending => "pending"
  | paid => "paid"
  | failed => "failed"
  | closed => "closed"

def PaymentOrder.principal (o : PaymentOrder) : Principal := ⟨o.tenantId, o.userId⟩

inductive CreditPaidOrderError where
  | database (e : DbError)
  | orderNotFound
  | notificationConflict
  | providerIdentityMismatch
  | invalidOrderStatus (status : String)
  | concurrentTransition
  deriving DecidableEq

namespace Tables

variable (t : Tables)

/-- `SELECT * FROM payment_orders WHERE id = …`. -/
def order? (id : Uuid) : Option PaymentOrder := lookup PaymentOrder.id id t.paymentOrders

/-- `SELECT … FROM payment_notifications WHERE payment_method = … AND provider_event_id = …`. -/
def notification? (key : PaymentMethod × String) : Option PaymentNotification :=
  lookup PaymentNotification.key key t.paymentNotifications

def insertOrder (row : PaymentOrder) : Tables :=
  { t with paymentOrders := t.paymentOrders ++ [row] }

def updateOrders (p : PaymentOrder → Bool) (f : PaymentOrder → PaymentOrder) : Tables :=
  { t with paymentOrders := updateWhere p f t.paymentOrders }

/-- `INSERT INTO payment_notifications … ON CONFLICT(payment_method, provider_event_id) DO
NOTHING`. -/
def insertNotificationIfAbsent (row : PaymentNotification) : Tables :=
  { t with
    paymentNotifications :=
      insertIfAbsent PaymentNotification.key row t.paymentNotifications }

/-- `UPDATE payment_notifications SET f WHERE payment_method = … AND provider_event_id = …`. -/
def updateNotification (key : PaymentMethod × String)
    (f : PaymentNotification → PaymentNotification) : Tables :=
  { t with
    paymentNotifications := updateKey PaymentNotification.key key f t.paymentNotifications }

end Tables

namespace PaymentOrder

def pendingWithId (id : Uuid) (o : PaymentOrder) : Bool :=
  decide (o.id = id ∧ o.status = .pending)

/-! ## `create` -/

/-- `CreatePaymentOrderRequest`, without the display texts. -/
structure CreateRequest where
  tenantId : Uuid
  userId : Uuid
  amount : ℤ
  paymentMethod : PaymentMethod
  expiredAt : Timestamp

/-- `PaymentOrder::create`; `id` is the generated key. -/
def create (id : Uuid) (req : CreateRequest) (outTradeNo : String) :
    Database → Except DbError PaymentOrder × Database :=
  atomically do
    UserBalance.requireMember ⟨req.tenantId, req.userId⟩
    let row : PaymentOrder :=
      { id, tenantId := req.tenantId, userId := req.userId, outTradeNo, tradeNo := none,
        providerTradeNo := none, amount := req.amount, status := .pending,
        paymentMethod := req.paymentMethod, paidAt := none, closedAt := none,
        expiredAt := req.expiredAt, notifyData := none }
    exec (·.insertOrder row)
    pure row

/-! ## `credit_paid` -/

/-- The arguments of `PaymentOrder::credit_paid`; the payload is its serialised text. -/
structure CreditRequest where
  orderId : Uuid
  providerTradeNo : String
  providerEventId : String
  payload : String
  description : String

/-- A transaction body of `credit_paid`. -/
abbrev CreditTx := Tx Database CreditPaidOrderError

/-- `SET status='paid', trade_no=…, provider_trade_no=…, notify_data=…, paid_at=NOW()`. -/
def markPaid (now : Timestamp) (req : CreditRequest) (o : PaymentOrder) : PaymentOrder :=
  { o with
    status := .paid, tradeNo := some req.providerTradeNo,
    providerTradeNo := some req.providerTradeNo, notifyData := some req.payload,
    paidAt := some now }

/-- `SET processing_status='processed', processed_at=NOW()`. -/
def markProcessed (now : Timestamp) (n : PaymentNotification) : PaymentNotification :=
  { n with processingStatus := .processed, processedAt := some now }

/-- `SET processing_status='processed', processed_at=COALESCE(processed_at, NOW())`. -/
def markProcessedAgain (now : Timestamp) (n : PaymentNotification) : PaymentNotification :=
  { n with processingStatus := .processed, processedAt := some (n.processedAt.getD now) }

def notificationKey (req : CreditRequest) (locked : PaymentOrder) : PaymentMethod × String :=
  (locked.paymentMethod, req.providerEventId)

def creditReplay (now : Timestamp) (req : CreditRequest) (locked : PaymentOrder) :
    CreditTx Bool := do
  Tx.failIf (locked.providerTradeNo.or locked.tradeNo ≠ some req.providerTradeNo)
    .providerIdentityMismatch
  Tx.mapError .database
    (exec (·.updateNotification (notificationKey req locked) (markProcessedAgain now)))
  pure false

def creditPending (now : Timestamp) (transactionId : Uuid) (req : CreditRequest)
    (locked : PaymentOrder) : CreditTx Bool := do
  let rows ← Tx.read (·.paymentOrders.countP (pendingWithId locked.id))
  Tx.mapError .database (exec (·.updateOrders (pendingWithId locked.id) (markPaid now req)))
  Tx.failIf (rows ≠ 1) .concurrentTransition
  let _ ← Tx.mapError .database (UserBalance.rechargeInTx transactionId locked.principal
    locked.amount (some locked.id) (some req.description))
  Tx.mapError .database
    (exec (·.updateNotification (notificationKey req locked) (markProcessed now)))
  pure true

variable (digest : String → String)

/-- The row that records an event when it is first received. -/
def receivedNotification (req : CreditRequest) (locked : PaymentOrder) : PaymentNotification where
  paymentMethod := locked.paymentMethod
  providerEventId := req.providerEventId
  orderId := some locked.id
  outTradeNo := locked.outTradeNo
  processingStatus := .received
  payloadDigest := digest req.payload
  processedAt := none

/-- The part of `credit_paid` after the order was locked. -/
def creditLocked (now : Timestamp) (transactionId : Uuid) (req : CreditRequest)
    (locked : PaymentOrder) : CreditTx Bool := do
  Tx.mapError .database
    (exec (·.insertNotificationIfAbsent (receivedNotification digest req locked)))
  let found ← Tx.read (·.notification? (notificationKey req locked))
  let notification ← Tx.okOr found .notificationConflict
  Tx.failIf (notification.orderId ≠ some locked.id ∨
    notification.payloadDigest ≠ digest req.payload) .notificationConflict
  if locked.status = .paid then creditReplay now req locked
  else if locked.status ≠ .pending then Tx.throw (.invalidOrderStatus locked.status.asStr)
  else creditPending now transactionId req locked

def creditPaidInTx (now : Timestamp) (transactionId : Uuid) (req : CreditRequest) :
    CreditTx Bool := do
  let joined ← Tx.read fun db => (db.order? req.orderId).filter fun o =>
    (db.tenant? o.tenantId).isSome
  let parent ← Tx.okOr joined .orderNotFound
  let row ← Tx.read (·.order? req.orderId)
  let locked ← Tx.okOr row .orderNotFound
  Tx.failIf (locked.tenantId ≠ parent.tenantId) .concurrentTransition
  creditLocked digest now transactionId req locked

def creditPaid (now : Timestamp) (transactionId : Uuid) (req : CreditRequest) :
    Database → Except CreditPaidOrderError Bool × Database :=
  atomically (creditPaidInTx digest now transactionId req)

/-! ## Ends without a credit -/

def notPending (id : Uuid) (t : Tables) : DbError :=
  match t.order? id with
  | some existing => .invalidOrderStatus "pending" existing.status.asStr
  | none => .notFound "PaymentOrder" (toString id)

def leavePending (id : Uuid) (f : PaymentOrder → PaymentOrder) :
    Database → Except DbError PaymentOrder × Database :=
  atomically do
    let row ← Tx.read (·.paymentOrders.find? (pendingWithId id))
    let missing ← Tx.read fun db => notPending id db.toTables
    let order ← Tx.okOr row missing
    exec (·.updateOrders (pendingWithId id) f)
    pure (f order)

def markFailed (o : PaymentOrder) : PaymentOrder := { o with status := .failed }

def markClosed (now : Timestamp) (o : PaymentOrder) : PaymentOrder :=
  { o with status := .closed, closedAt := some now }

def markAsFailed (id : Uuid) : Database → Except DbError PaymentOrder × Database :=
  leavePending id markFailed

def close (now : Timestamp) (id : Uuid) : Database → Except DbError PaymentOrder × Database :=
  leavePending id (markClosed now)

def overdue (now : Timestamp) (o : PaymentOrder) : Bool :=
  decide (o.status = .pending ∧ o.expiredAt < now)

def closeExpiredOrders (now : Timestamp) : Database → Except DbError Nat × Database :=
  atomically do
    let rows ← Tx.read (·.paymentOrders.countP (overdue now))
    exec (·.updateOrders (overdue now) (markClosed now))
    pure rows

end PaymentOrder

/-! ## What an accepted event does -/

/-- The order and the payload digest that a notification is bound to. -/
def Tables.binding? (t : Tables) (key : PaymentMethod × String) : Option (Option Uuid × String) :=
  (t.notification? key).map fun n => (n.orderId, n.payloadDigest)

namespace PaymentOrder

/-- **Everything a successful `credit_paid` does**, and what it returns. -/
inductive CreditEffect (digest : String → String) (now : Timestamp) (req : CreditRequest)
    (t : Tables) : Bool → Tables → Prop where
  | replayed {o : PaymentOrder} (found : t.order? req.orderId = some o) (status : o.status = .paid)
      (bound : (t.insertNotificationIfAbsent (receivedNotification digest req o)).binding?
        (notificationKey req o) = some (some o.id, digest req.payload)) :
      CreditEffect digest now req t false
        ((t.insertNotificationIfAbsent (receivedNotification digest req o)).updateNotification
          (notificationKey req o) (markProcessedAgain now))
  | credited {o : PaymentOrder} {x : BalanceTransaction} (found : t.order? req.orderId = some o)
      (status : o.status = .pending)
      (bound : (t.insertNotificationIfAbsent (receivedNotification digest req o)).binding?
        (notificationKey req o) = some (some o.id, digest req.payload))
      (records : x.Records o.principal .recharge (some o.id) none o.amount) :
      CreditEffect digest now req t true
        (((((t.insertNotificationIfAbsent (receivedNotification digest req o)).updateOrders
          (pendingWithId o.id) (markPaid now req)).creditOrInsert o.principal
            o.amount).insertTransaction x).updateNotification (notificationKey req o)
              (markProcessed now))

theorem creditPaidInTx_cases {digest : String → String} {now : Timestamp} {transactionId : Uuid}
    {req : CreditRequest} {out : Bool} {db db' : Database}
    (h : creditPaidInTx digest now transactionId req db = (.ok out, db')) :
    CreditEffect digest now req db.toTables out db'.toTables := by
  simp only [creditPaidInTx, creditLocked, Tx.inv, Tx.mapError_eq_ok, exec_eq_ok] at h
  obtain ⟨_, rfl, parent, -, _, rfl, o, hfound, _, -, _, db₁, hinsert, _, rfl, n, hn, _, hbound,
    h⟩ := h
  simp only [not_or, not_not] at hbound
  have hbinding : (db.toTables.insertNotificationIfAbsent (receivedNotification digest req
      o)).binding? (notificationKey req o) = some (some o.id, digest req.payload) := by
    rw [← hinsert, Tables.binding?, hn, Option.map_some, hbound.1, hbound.2]
  by_cases hpaid : o.status = .paid
  · rw [if_pos hpaid] at h
    simp only [creditReplay, Tx.inv, Tx.mapError_eq_ok, exec_eq_ok] at h
    obtain ⟨_, -, _, _, hwrite, rfl, rfl⟩ := h
    rw [hwrite, hinsert]
    exact .replayed hfound hpaid hbinding
  rw [if_neg hpaid] at h
  by_cases hpending : o.status = .pending
  · rw [if_neg (not_not.mpr hpending)] at h
    simp only [creditPending, Tx.inv, Tx.mapError_eq_ok, exec_eq_ok] at h
    obtain ⟨_, -, _, db₂, hpay, _, -, _, db₃, hrecharge, _, _, hwrite, rfl,
      rfl⟩ := h
    obtain ⟨-, hrecords, -, htables⟩ := UserBalance.rechargeInTx_inversion hrecharge
    rw [hwrite, htables, hpay, hinsert]
    exact .credited hfound hpending hbinding hrecords
  · rw [if_pos hpending] at h
    cases h

end PaymentOrder

/-! ## The recharges of an order -/

section Recharges

variable {t t' : Tables} {id : Uuid} {x : BalanceTransaction}

def Tables.recharges (t : Tables) (id : Uuid) : List BalanceTransaction :=
  t.balanceTransactions.filter fun x => decide (x.rechargeOrder = some id)

theorem Tables.mem_recharges :
    x ∈ t.recharges id ↔ x ∈ t.balanceTransactions ∧ x.rechargeOrder = some id := by
  simp [recharges]

theorem BalanceTransaction.Records.rechargeOrder {p : Principal} {orderId usageLogId : Option Uuid}
    {amount : ℤ} (h : x.Records p .recharge orderId usageLogId amount) :
    x.rechargeOrder = orderId := by
  rw [BalanceTransaction.rechargeOrder, if_pos h.type, h.orderId]

theorem Tables.BalanceTransactionsValid.order_exists (valid : t.BalanceTransactionsValid)
    (h : x ∈ t.recharges id) : id ∈ t.paymentOrders.map PaymentOrder.id := by
  obtain ⟨member, horder⟩ := mem_recharges.mp h
  rw [BalanceTransaction.rechargeOrder] at horder
  split at horder
  · exact (valid.2.2.2 x member).2.1 id horder
  · cases horder

theorem WalletSteps.recharges_eq {acts : Act → Prop} {db db' : Database}
    (h : WalletSteps acts db db') (hacts : ¬ acts (.credit .recharge (some id))) :
    db'.recharges id = db.recharges id := by
  refine h.filter_transactions fun act x hact hposts => ?_
  rw [decide_eq_false_iff_not, BalanceTransaction.rechargeOrder]
  intro horder
  cases act with
  | credit type orderId =>
    split at horder
    · rename_i htype
      obtain rfl := hposts.2.1.symm.trans htype
      rw [hposts.2.2] at horder
      exact hacts (horder ▸ hact)
    · cases horder
  | charge usageLogId => simp [hposts.1] at horder
  | lock => rcases hposts with htype | htype <;> simp [htype] at horder
  | _ => exact hposts

end Recharges

/-! ## Steps of the orders -/

namespace PaymentOrder

/-- The order left `pending`, and is otherwise the same order. -/
structure LeavesPending (o o' : PaymentOrder) : Prop where
  pending : o.status = .pending
  left : o'.status ≠ .pending
  id : o'.id = o.id
  principal : o'.principal = o.principal
  amount : o'.amount = o.amount
  paymentMethod : o'.paymentMethod = o.paymentMethod

/-- **The changes to orders and notifications**, one constructor per effect. -/
inductive OrderStep (digest : String → String) (t : Tables) : Tables → Prop where
  | created {row : PaymentOrder} (pending : row.status = .pending) :
      OrderStep digest t (t.insertOrder row)
  | credited {now : Timestamp} {req : CreditRequest} {out : Bool} {t' : Tables}
      (effect : CreditEffect digest now req t out t') : OrderStep digest t t'
  | ended {p : PaymentOrder → Bool} {f : PaymentOrder → PaymentOrder}
      (leaves : ∀ o, p o → o.LeavesPending (f o)) (unpaid : ∀ o, (f o).status ≠ .paid) :
      OrderStep digest t (t.updateOrders p f)
  | apart {t' : Tables} (orders : t'.paymentOrders = t.paymentOrders)
      (notifications : t'.paymentNotifications = t.paymentNotifications)
      (recharges : ∀ id, t'.recharges id = t.recharges id) : OrderStep digest t t'

section Steps

variable {digest : String → String} {now : Timestamp} {id : Uuid} {t t' : Tables}

theorem pendingWithId_iff {o : PaymentOrder} :
    pendingWithId id o = true ↔ o.id = id ∧ o.status = .pending := by
  simp [pendingWithId]

theorem markPaid_leaves {req : CreditRequest} (o : PaymentOrder) (h : pendingWithId id o) :
    o.LeavesPending (markPaid now req o) :=
  ⟨(pendingWithId_iff.mp h).2, nofun, rfl, rfl, rfl, rfl⟩

theorem leavePending_step {f : PaymentOrder → PaymentOrder} {db : Database}
    (leaves : ∀ o : PaymentOrder, o.status = .pending → o.LeavesPending (f o))
    (unpaid : ∀ o, (f o).status ≠ .paid) :
    OrderStep digest db.toTables (leavePending id f db).2.toTables := by
  refine atomically_rel (R := fun before after : Database =>
    OrderStep digest before.toTables after.toTables) (.apart rfl rfl fun _ => rfl) fun _ db' h => ?_
  simp only [Tx.inv, exec_eq_ok] at h
  obtain ⟨_, -, _, -, o, -, _, _, hwrite, -, rfl⟩ := h
  rw [hwrite]
  exact .ended (fun o hp => leaves o (pendingWithId_iff.mp hp).2) unpaid

theorem markAsFailed_step (id : Uuid) (db : Database) :
    OrderStep digest db.toTables (markAsFailed id db).2.toTables :=
  leavePending_step (fun _ h => ⟨h, nofun, rfl, rfl, rfl, rfl⟩) fun _ => nofun

theorem close_step (now : Timestamp) (id : Uuid) (db : Database) :
    OrderStep digest db.toTables (close now id db).2.toTables :=
  leavePending_step (fun _ h => ⟨h, nofun, rfl, rfl, rfl, rfl⟩) fun _ => nofun

theorem closeExpiredOrders_step (now : Timestamp) (db : Database) :
    OrderStep digest db.toTables (closeExpiredOrders now db).2.toTables := by
  refine atomically_rel (R := fun before after : Database =>
    OrderStep digest before.toTables after.toTables) (.apart rfl rfl fun _ => rfl) fun _ db' h => ?_
  simp only [Tx.inv, exec_eq_ok] at h
  obtain ⟨_, -, _, _, hwrite, -, rfl⟩ := h
  rw [hwrite]
  refine .ended (fun o hp => ⟨?_, by rintro ⟨⟩, rfl, rfl, rfl, rfl⟩) fun _ => by rintro ⟨⟩
  exact (of_decide_eq_true hp).1

theorem create_step (id : Uuid) (req : CreateRequest) (outTradeNo : String) (db : Database) :
    OrderStep digest db.toTables (create id req outTradeNo db).2.toTables := by
  refine atomically_rel (R := fun before after : Database =>
    OrderStep digest before.toTables after.toTables) (.apart rfl rfl fun _ => rfl) fun _ db' h => ?_
  simp only [Tx.inv, exec_eq_ok] at h
  obtain ⟨_, _, hmember, _, _, hwrite, -, rfl⟩ := h
  rw [hwrite, UserBalance.requireMember_state hmember]
  exact .created rfl

theorem creditPaid_step (now : Timestamp) (transactionId : Uuid) (req : CreditRequest)
    (db : Database) :
    OrderStep digest db.toTables (creditPaid digest now transactionId req db).2.toTables :=
  atomically_rel (R := fun before after : Database =>
    OrderStep digest before.toTables after.toTables) (.apart rfl rfl fun _ => rfl)
    fun _ _ h => .credited (creditPaidInTx_cases h)

/-- **A step keeps every order**, and changes one only to end `pending`. -/
theorem OrderStep.order? (h : OrderStep digest t t') {o : PaymentOrder}
    (found : t.order? id = some o) :
    ∃ o', t'.order? id = some o' ∧ (o' = o ∨ o.LeavesPending o') := by
  -- both kinds of update go through the select on the key
  have hupdate {p : PaymentOrder → Bool} {f : PaymentOrder → PaymentOrder}
      (leaves : ∀ o : PaymentOrder, p o → o.LeavesPending (f o)) :
      ∃ o', (t.updateOrders p f).order? id = some o' ∧ (o' = o ∨ o.LeavesPending o') := by
    refine ⟨if p o then f o else o, ?_, ?_⟩
    · rw [Tables.order?, Tables.updateOrders, lookup_updateWhere fun r hp => (leaves r hp).id]
      rw [Tables.order?] at found
      rw [found]
      rfl
    · split
      · exact .inr (leaves o ‹_›)
      · exact .inl rfl
  cases h with
  | created pending =>
    refine ⟨o, ?_, .inl rfl⟩
    rw [Tables.order?] at found
    rw [Tables.order?, Tables.insertOrder, lookup_append, found]
    rfl
  | credited effect =>
    cases effect with
    | replayed => exact ⟨o, found, .inl rfl⟩
    | credited => exact hupdate markPaid_leaves
  | ended leaves unpaid => exact hupdate leaves
  | apart orders notifications recharges =>
    refine ⟨o, ?_, .inl rfl⟩
    rw [Tables.order?, orders]
    exact found

end Steps

end PaymentOrder

/-! ### Notifications stay bound -/

section Binding

variable {t t' : Tables} {key key' : PaymentMethod × String} {b : Option Uuid × String}

theorem Tables.binding?_insertNotificationIfAbsent {row : PaymentNotification}
    (h : t.binding? key = some b) : (t.insertNotificationIfAbsent row).binding? key = some b := by
  obtain ⟨n, hn, hb⟩ := Option.map_eq_some_iff.mp h
  rw [binding?, notification?, insertNotificationIfAbsent, lookup_insertIfAbsent]
  rw [notification?] at hn
  split <;> simp [hn, hb]

theorem Tables.binding?_updateNotification {f : PaymentNotification → PaymentNotification}
    (hkey : ∀ n, (f n).key = n.key)
    (hbinding : ∀ n, ((f n).orderId, (f n).payloadDigest) = (n.orderId, n.payloadDigest)) :
    (t.updateNotification key f).binding? key' = t.binding? key' := by
  rw [binding?, notification?, updateNotification, lookup_updateKey hkey, binding?, notification?]
  split
  · subst key'
    rw [Option.map_map]
    exact Option.map_congr fun n _ => hbinding n
  · rfl

variable {now : Timestamp}

theorem Tables.binding?_markProcessed :
    (t.updateNotification key (PaymentOrder.markProcessed now)).binding? key' = t.binding? key' :=
  binding?_updateNotification (fun _ => rfl) fun _ => rfl

theorem Tables.binding?_markProcessedAgain :
    (t.updateNotification key (PaymentOrder.markProcessedAgain now)).binding? key' =
      t.binding? key' :=
  binding?_updateNotification (fun _ => rfl) fun _ => rfl

theorem PaymentOrder.OrderStep.binding? {digest : String → String} (h : OrderStep digest t t')
    (hb : t.binding? key = some b) : t'.binding? key = some b := by
  cases h with
  | created pending => exact hb
  | credited effect =>
    cases effect with
    | replayed =>
      rw [Tables.binding?_markProcessedAgain]
      exact Tables.binding?_insertNotificationIfAbsent hb
    | credited =>
      rw [Tables.binding?_markProcessed]
      exact Tables.binding?_insertNotificationIfAbsent hb
  | ended leaves unpaid => exact hb
  | apart orders notifications recharges =>
    rw [Tables.binding?, Tables.notification?, notifications]
    exact hb

theorem PaymentOrder.CreditEffect.bound {digest : String → String} {req : CreditRequest}
    {out : Bool} (h : CreditEffect digest now req t out t') :
    ∃ o, t.order? req.orderId = some o ∧
      t'.binding? (notificationKey req o) = some (some req.orderId, digest req.payload) := by
  have hid {o : PaymentOrder} (found : t.order? req.orderId = some o) : o.id = req.orderId :=
    key_of_lookup found
  cases h with
  | replayed found status bound =>
    refine ⟨_, found, ?_⟩
    rw [Tables.binding?_markProcessedAgain, bound, hid found]
  | credited found status bound records =>
    refine ⟨_, found, ?_⟩
    rw [Tables.binding?_markProcessed, ← hid found]
    exact bound

end Binding

/-! ### Orders and the journal agree -/

/-- What the journal holds for an order: one recharge of its amount to its owner if it is paid, and
nothing otherwise. -/
def PaymentOrder.Booked (o : PaymentOrder) (xs : List BalanceTransaction) : Prop :=
  if o.status = .paid then ∃ x, xs = [x] ∧ x.Records o.principal .recharge (some o.id) none o.amount
  else xs = []

def Tables.OrdersBooked (t : Tables) : Prop := ∀ o ∈ t.paymentOrders, o.Booked (t.recharges o.id)

section Booked

variable {t t' : Tables} {o : PaymentOrder} {xs : List BalanceTransaction}

theorem PaymentOrder.Booked.of_unpaid (h : o.Booked xs) (hstatus : o.status ≠ .paid) : xs = [] := by
  rwa [Booked, if_neg hstatus] at h

theorem PaymentOrder.Booked.of_paid (h : o.Booked xs) (hstatus : o.status = .paid) :
    ∃ x, xs = [x] ∧ x.Records o.principal .recharge (some o.id) none o.amount := by
  rwa [Booked, if_pos hstatus] at h

theorem PaymentOrder.Booked.unpaid (hstatus : o.status ≠ .paid) : o.Booked [] := by
  rw [Booked, if_neg hstatus]

theorem PaymentOrder.Booked.paid {x : BalanceTransaction} (hstatus : o.status = .paid)
    (h : x.Records o.principal .recharge (some o.id) none o.amount) : o.Booked [x] := by
  rw [Booked, if_pos hstatus]
  exact ⟨x, rfl, h⟩

/-- A new order has no recharge: its key was not there to be referred to. -/
theorem Tables.OrdersBooked.created (h : t.OrdersBooked) (valid : t.BalanceTransactionsValid)
    (valid' : (t.insertOrder o).PaymentOrdersValid) (pending : o.status = .pending) :
    (t.insertOrder o).OrdersBooked := by
  intro o' member
  rcases List.mem_append.mp member with hold | hnew
  · exact h o' hold
  obtain rfl := List.mem_singleton.mp hnew
  have hfresh : o'.id ∉ t.paymentOrders.map PaymentOrder.id := by
    have hnodup := valid'.1
    rw [insertOrder, List.map_append, List.nodup_append] at hnodup
    intro hmem
    exact hnodup.2.2 _ hmem _ (List.mem_singleton_self _) rfl
  have hempty : t.recharges o'.id = [] :=
    List.eq_nil_iff_forall_not_mem.mpr fun x hx => hfresh (valid.order_exists hx)
  change o'.Booked (t.recharges o'.id)
  rw [hempty]
  exact .unpaid (by rw [pending]; nofun)

theorem Tables.OrdersBooked.ended {p : PaymentOrder → Bool} {f : PaymentOrder → PaymentOrder}
    (h : t.OrdersBooked) (leaves : ∀ o : PaymentOrder, p o → o.LeavesPending (f o))
    (unpaid : ∀ o, (f o).status ≠ .paid) : (t.updateOrders p f).OrdersBooked := by
  intro o' member
  obtain ⟨o, horder, rfl⟩ := mem_updateWhere.mp member
  change PaymentOrder.Booked _ (t.recharges _)
  split
  · have hleaves := leaves o ‹_›
    have hempty := (h o horder).of_unpaid (by rw [hleaves.pending]; nofun)
    rw [hleaves.id, hempty]
    exact .unpaid (unpaid o)
  · exact h o horder

theorem Tables.OrdersBooked.credited {now : Timestamp} {req : PaymentOrder.CreditRequest}
    {x : BalanceTransaction} (h : t.OrdersBooked) (valid : t.PaymentOrdersValid)
    (member : o ∈ t.paymentOrders)
    (records : x.Records o.principal .recharge (some o.id) none o.amount)
    (orders : t'.paymentOrders =
      updateWhere (PaymentOrder.pendingWithId o.id) (PaymentOrder.markPaid now req) t.paymentOrders)
    (rows : t'.balanceTransactions = t.balanceTransactions ++ [x]) (status : o.status = .pending) :
    t'.OrdersBooked := by
  have hrecharges (id : Uuid) :
      t'.recharges id = t.recharges id ++ if o.id = id then [x] else [] := by
    rw [recharges, rows, List.filter_append, recharges]
    by_cases hid : o.id = id <;> simp [records.rechargeOrder, hid]
  intro o' hmember
  rw [orders] at hmember
  obtain ⟨o₀, hold, rfl⟩ := mem_updateWhere.mp hmember
  -- two orders with one key are the same row
  have hsame (hid : o₀.id = o.id) : o₀ = o :=
    List.inj_on_of_nodup_map valid.1 hold member hid
  split
  · have hid := (PaymentOrder.pendingWithId_iff.mp ‹_›).1
    obtain rfl := hsame hid
    change PaymentOrder.Booked _ (t'.recharges o₀.id)
    rw [hrecharges, (h o₀ hold).of_unpaid (by rw [status]; nofun), if_pos rfl]
    exact .paid rfl records
  · have hne : o.id ≠ o₀.id := by
      intro hid
      obtain rfl := hsame hid.symm
      exact absurd (PaymentOrder.pendingWithId_iff.mpr ⟨rfl, status⟩) ‹_›
    rw [hrecharges, if_neg hne, List.append_nil]
    exact h o₀ hold

theorem PaymentOrder.OrderStep.ordersBooked {digest : String → String} {db db' : Database}
    (step : OrderStep digest db.toTables db'.toTables) (h : db.OrdersBooked) :
    db'.OrdersBooked := by
  have hvalid := db'.valid
  generalize db'.toTables = t' at step hvalid
  cases step with
  | created pending => exact h.created db.valid.2.2.2.1 hvalid.2.2.2.2.2.1 pending
  | credited effect =>
    cases effect with
    | replayed => exact h
    | credited found status bound records =>
      exact h.credited db.valid.2.2.2.2.2.1 (mem_of_lookup found) records rfl rfl status
  | ended leaves unpaid => exact h.ended leaves unpaid
  | apart orders notifications recharges =>
    intro o member
    rw [orders] at member
    rw [recharges]
    exact h o member

end Booked

/-! ## The shop -/

/-- A call on the orders, or a call that writes neither orders nor notifications. -/
inductive OrderCall where
  | create (id : Uuid) (req : PaymentOrder.CreateRequest) (outTradeNo : String)
  | creditPaid (now : Timestamp) (transactionId : Uuid) (req : PaymentOrder.CreditRequest)
  | markAsFailed (id : Uuid)
  | close (now : Timestamp) (id : Uuid)
  | closeExpiredOrders (now : Timestamp)
  | wallet (call : WalletCall)
  | elsewhere (tables : Tables)

structure OrderEvent where
  call : OrderCall
  ending : Ending

/-- Wallet calls write only wallets, and credit no order. -/
def OrderEvent.Allowed (e : OrderEvent) : Prop :=
  ∀ call, e.call = .wallet call →
    ¬ call.Acts .outside ∧ ∀ id, ¬ call.Acts (.credit .recharge (some id))

/-- The tables beside wallets and orders become those of `tables`. -/
def Tables.replaceBesideOrders (tables t : Tables) : Tables :=
  { tables.replaceElsewhere t with
    paymentOrders := t.paymentOrders
    paymentNotifications := t.paymentNotifications }

section Shop

variable (digest : String → String)

def OrderCall.step : OrderCall → Database → Database
  | create id req outTradeNo, db => (PaymentOrder.create id req outTradeNo db).2
  | creditPaid now transactionId req, db =>
    (PaymentOrder.creditPaid digest now transactionId req db).2
  | markAsFailed id, db => (PaymentOrder.markAsFailed id db).2
  | close now id, db => (PaymentOrder.close now id db).2
  | closeExpiredOrders now, db => (PaymentOrder.closeExpiredOrders now db).2
  | wallet call, db => call.step db
  | elsewhere tables, db => (atomically (exec tables.replaceBesideOrders) db).2

def OrderEvent.step (e : OrderEvent) (db : Database) : Database :=
  e.ending.state db (e.call.step digest db)

def OrderEvent.run (events : List OrderEvent) (db : Database) : Database :=
  runAll (OrderEvent.step digest) events db

theorem PaymentOrder.replaceBesideOrders_step (tables : Tables) (db : Database) :
    OrderStep digest db.toTables (atomically (exec tables.replaceBesideOrders) db).2.toTables := by
  refine atomically_rel (R := fun before after : Database =>
    OrderStep digest before.toTables after.toTables) (.apart rfl rfl fun _ => rfl) fun _ db' h => ?_
  rw [exec_eq_ok.mp h]
  exact .apart rfl rfl fun _ => rfl

theorem OrderEvent.orderStep {e : OrderEvent} (allowed : e.Allowed) (db : Database) :
    PaymentOrder.OrderStep digest db.toTables (e.step digest db).toTables := by
  refine e.ending.rel (R := fun before after : Database =>
    PaymentOrder.OrderStep digest before.toTables after.toTables) (.apart rfl rfl fun _ => rfl) ?_
  cases hcall : e.call with
  | create id req outTradeNo => exact PaymentOrder.create_step id req outTradeNo db
  | creditPaid now transactionId req => exact PaymentOrder.creditPaid_step now transactionId req db
  | markAsFailed id => exact PaymentOrder.markAsFailed_step id db
  | close now id => exact PaymentOrder.close_step now id db
  | closeExpiredOrders now => exact PaymentOrder.closeExpiredOrders_step now db
  | wallet call =>
    obtain ⟨houtside, hcredit⟩ := allowed call hcall
    have hsteps := call.steps db
    have hsame := hsteps.sameElsewhere houtside
    exact .apart hsame.paymentOrders hsame.paymentNotifications fun id =>
      hsteps.recharges_eq (hcredit id)
  | elsewhere tables =>
    exact PaymentOrder.replaceBesideOrders_step digest tables db

variable {digest} {events : List OrderEvent} {db : Database}

theorem OrderEvent.run_invariant {I : Database → Prop}
    (hstep : ∀ {db db' : Database}, PaymentOrder.OrderStep digest db.toTables db'.toTables →
      I db → I db')
    (allowed : ∀ e ∈ events, e.Allowed) (h : I db) : I (run digest events db) :=
  runAll_invariant_of
    (fun e db (hallowed : e.Allowed) hI => hstep (orderStep digest hallowed db) hI)
    events db allowed h

variable {o : PaymentOrder}

theorem OrderEvent.run_order? (allowed : ∀ e ∈ events, e.Allowed) {id : Uuid}
    (found : db.order? id = some o) (left : o.status ≠ .pending) :
    (run digest events db).order? id = some o := by
  refine run_invariant (I := fun db : Database => db.order? id = some o) ?_ allowed found
  intro db db' step hfound
  obtain ⟨o', hfound', rfl | hleaves⟩ := step.order? hfound
  · exact hfound'
  · exact absurd hleaves.pending left

theorem OrderEvent.run_binding? (allowed : ∀ e ∈ events, e.Allowed)
    {key : PaymentMethod × String} {b : Option Uuid × String} (bound : db.binding? key = some b) :
    (run digest events db).binding? key = some b :=
  run_invariant (I := fun db : Database => db.binding? key = some b)
    (fun step h => step.binding? h) allowed bound

theorem PaymentOrder.CreditEffect.wallet {now : Timestamp} {req : CreditRequest} {out : Bool}
    {t t' : Tables} (h : CreditEffect digest now req t out t') :
    ∃ o o', t.order? req.orderId = some o ∧ t'.order? req.orderId = some o' ∧ o'.status = .paid ∧
      (out = true ↔ o.status = .pending) ∧ ∀ p, t'.wallet p =
        if out = true ∧ p = o.principal then (t.wallet p).credit o.amount else t.wallet p := by
  cases h with
  | replayed found status bound =>
    exact ⟨_, _, found, found, status, by simp [status], fun p => by simp; rfl⟩
  | @credited o x found status bound records =>
    have hpaid : (t.updateOrders (pendingWithId o.id) (markPaid now req)).order? req.orderId =
        some (markPaid now req o) := by
      rw [Tables.order?, Tables.updateOrders,
        lookup_updateWhere fun r hp => (markPaid_leaves r hp).id]
      rw [Tables.order?] at found
      rw [found, Option.map_some, if_pos (pendingWithId_iff.mpr ⟨rfl, status⟩)]
    refine ⟨o, _, found, hpaid, rfl, by simp [status], fun p => ?_⟩
    simp only [true_and]
    exact Tables.wallet_creditOrInsert

theorem PaymentOrder.creditPaid_bound {now : Timestamp} {transactionId : Uuid} {req : CreditRequest}
    {out : Bool} (found : db.order? req.orderId = some o)
    (h : (creditPaid digest now transactionId req db).1 = .ok out) :
    (creditPaid digest now transactionId req db).2.binding? (notificationKey req o) =
      some (some req.orderId, digest req.payload) := by
  have hrun : creditPaid digest now transactionId req db =
      (.ok out, (creditPaid digest now transactionId req db).2) := Prod.ext h rfl
  obtain ⟨o', hfound', hbound⟩ := (creditPaidInTx_cases (atomically_eq_ok.mp hrun)).bound
  obtain rfl := Option.some.inj (found.symm.trans hfound')
  exact hbound

variable (digest db)

/-- **Orders are credited once.**  An order has a recharge exactly when it is paid, and then one,
of its amount and to its owner; an accepted event leaves the order paid, and adds its amount to the
wallet of its owner exactly if the order was `pending`; an order that left `pending` stays as it is;
a notification that was accepted for an order and a payload is accepted for no other; a refused
event changes nothing. -/
structure CreditedOnce : Prop where
  atMostOne : ∀ id, (db.recharges id).length ≤ 1
  paid_iff : ∀ o ∈ db.paymentOrders,
    (∃ x ∈ db.balanceTransactions, x.rechargeOrder = some o.id) ↔ o.status = .paid
  amount : ∀ o ∈ db.paymentOrders, ∀ x ∈ db.balanceTransactions, x.rechargeOrder = some o.id →
    x.amount = o.amount ∧ x.principal = o.principal
  credited : ∀ now transactionId req out db',
    PaymentOrder.creditPaid digest now transactionId req db = (.ok out, db') →
    ∃ o o', db.order? req.orderId = some o ∧ db'.order? req.orderId = some o' ∧
      o'.status = .paid ∧ (out = true ↔ o.status = .pending) ∧ ∀ p, db'.wallet p =
        if out = true ∧ p = o.principal then
          { db.wallet p with
            availableBalance := (db.wallet p).availableBalance + o.amount
            totalRecharged := (db.wallet p).totalRecharged + o.amount }
        else db.wallet p
  final : ∀ id o, db.order? id = some o → o.status ≠ .pending →
    ∀ later : List OrderEvent, (∀ e ∈ later, e.Allowed) →
      (OrderEvent.run digest later db).order? id = some o
  bound : ∀ now transactionId req o out, db.order? req.orderId = some o →
    (PaymentOrder.creditPaid digest now transactionId req db).1 = .ok out →
    ∀ later : List OrderEvent, (∀ e ∈ later, e.Allowed) →
    ∀ db', OrderEvent.run digest later
      (PaymentOrder.creditPaid digest now transactionId req db).2 = db' →
    ∀ now' transactionId' req' o' out', db'.order? req'.orderId = some o' →
      PaymentOrder.notificationKey req' o' = PaymentOrder.notificationKey req o →
      (PaymentOrder.creditPaid digest now' transactionId' req' db').1 = .ok out' →
      req'.orderId = req.orderId ∧ digest req'.payload = digest req.payload ∧
        (Function.Injective digest → req'.payload = req.payload)
  refused : ∀ now transactionId req e,
    (PaymentOrder.creditPaid digest now transactionId req db).1 = .error e →
    (PaymentOrder.creditPaid digest now transactionId req db).2 = db

variable {digest db}

theorem Tables.OrdersBooked.recharges_length_le_one (h : db.OrdersBooked) (id : Uuid) :
    (db.recharges id).length ≤ 1 := by
  by_cases hempty : db.recharges id = []
  · simp [hempty]
  obtain ⟨x, hx⟩ := List.exists_mem_of_ne_nil _ hempty
  obtain ⟨o, member, rfl⟩ := List.mem_map.mp (db.valid.2.2.2.1.order_exists hx)
  by_cases hpaid : o.status = .paid
  · obtain ⟨y, hy, -⟩ := (h o member).of_paid hpaid
    simp [hy]
  · exact absurd ((h o member).of_unpaid hpaid) hempty

theorem Tables.OrdersBooked.status_of_recharge {t : Tables} (h : t.OrdersBooked)
    (member : o ∈ t.paymentOrders) {x : BalanceTransaction} (hx : x ∈ t.recharges o.id) :
    o.status = .paid := by
  by_contra hpaid
  rw [(h o member).of_unpaid hpaid] at hx
  cases hx

/-- **Payment orders are credited exactly once**, after any sequence of calls. -/
theorem orders_credited_once (digest : String → String) (start : Database)
    (booked : start.OrdersBooked) (events : List OrderEvent)
    (allowed : ∀ e ∈ events, e.Allowed) :
    CreditedOnce digest (OrderEvent.run digest events start) := by
  have hbooked : (OrderEvent.run digest events start).OrdersBooked :=
    OrderEvent.run_invariant (I := fun db : Database => db.OrdersBooked)
      (fun step h => step.ordersBooked h) allowed booked
  generalize OrderEvent.run digest events start = db at hbooked
  refine ⟨hbooked.recharges_length_le_one, ?_, ?_, ?_, ?_, ?_, ?_⟩
  · intro o member
    constructor
    · rintro ⟨x, hx, horder⟩
      exact hbooked.status_of_recharge member (Tables.mem_recharges.mpr ⟨hx, horder⟩)
    · intro hpaid
      obtain ⟨x, hx, -⟩ := (hbooked o member).of_paid hpaid
      exact ⟨x, Tables.mem_recharges.mp (hx ▸ List.mem_singleton_self x)⟩
  · intro o member x hx horder
    have hrecharge := Tables.mem_recharges.mpr ⟨hx, horder⟩
    obtain ⟨y, hy, hrecords⟩ :=
      (hbooked o member).of_paid (hbooked.status_of_recharge member hrecharge)
    rw [hy] at hrecharge
    obtain rfl := List.mem_singleton.mp hrecharge
    exact ⟨hrecords.amount, hrecords.principal⟩
  · intro now transactionId req out db' hrun
    exact (PaymentOrder.creditPaidInTx_cases (atomically_eq_ok.mp hrun)).wallet
  · intro id o found left later hlater
    exact OrderEvent.run_order? hlater found left
  · rintro now transactionId req o out found hok later hlater _ rfl now' transactionId' req' o' out'
      found' hkey hok'
    -- the second call finds the binding the first one left, and leaves its own
    have hfirst : (OrderEvent.run digest later _).binding? _ = _ :=
      OrderEvent.run_binding? hlater (PaymentOrder.creditPaid_bound found hok)
    have hsecond := PaymentOrder.creditPaid_bound found' hok'
    rw [hkey, (PaymentOrder.creditPaid_step now' transactionId' req' _).binding? hfirst] at hsecond
    obtain ⟨horder, hpayload⟩ := Prod.mk.inj (Option.some.inj hsecond)
    exact ⟨(Option.some.inj horder).symm, hpayload.symm, fun hinj => hinj hpayload.symm⟩
  · intro now transactionId req e herror
    exact atomically_error_state (Prod.ext herror rfl)

/-- An order that is paid, notified again, notified for another payload and closed too late. -/
def samplePayments : List OrderEvent :=
  [⟨.create 5 ⟨1, 10, 30, .alipay, 100⟩ "T5", .answered⟩,
    ⟨.creditPaid 1 70 ⟨5, "P1", "E1", "paid", "recharge"⟩, .lost true⟩,
    ⟨.creditPaid 2 71 ⟨5, "P1", "E1", "paid", "recharge"⟩, .answered⟩,
    ⟨.creditPaid 3 72 ⟨5, "P1", "E1", "other", "recharge"⟩, .answered⟩,
    ⟨.close 4 5, .answered⟩,
    ⟨.wallet (.recharge 73 ⟨1, 10⟩ 20 none none), .answered⟩]

theorem orders_credited_once_samplePayments :
    freshTenant.OrdersBooked ∧ (∀ e ∈ samplePayments, e.Allowed) ∧
      ((OrderEvent.run id samplePayments freshTenant).recharges 5).map (·.amount) = [30] ∧
      (OrderEvent.run id samplePayments freshTenant).userBalances.map (·.totalRecharged) = [50] ∧
      CreditedOnce id (OrderEvent.run id samplePayments freshTenant) := by
  have hbooked : freshTenant.OrdersBooked := by
    intro o member
    exact absurd member List.not_mem_nil
  have hallowed : ∀ e ∈ samplePayments, e.Allowed := by
    simp [samplePayments, OrderEvent.Allowed, WalletCall.Acts]
  exact ⟨hbooked, hallowed, by decide +kernel, by decide +kernel,
    orders_credited_once id freshTenant hbooked samplePayments hallowed⟩

end Shop

end KeyCompute
