import KeyCompute.Database.Schema
import KeyCompute.Relational.Transaction

/-!
# Statements of a transaction

`exec` runs one write statement.  PostgreSQL checks every constraint as part of the statement, so
`exec` keeps the new tables only when they are `Valid`.  As a `Database` carries its validity, a
write succeeds exactly when the working tables have become the written ones (`exec_eq_ok`).

The keyed selects and the row updates of the wallet columns are named here once; the transaction
bodies of the wallet, the payment orders and the tips are written in them.
-/

namespace KeyCompute

open Relational

/-- A transaction body on the financial database. -/
abbrev DbTx := Tx Database DbError

variable {db db' : Database}

theorem Database.eq_of_tables (h : db.toTables = db'.toTables) : db = db' := by
  cases db
  cases db'
  simp_all

/-- One write statement, checked against the constraints of the schema. -/
def exec (write : Tables → Tables) : DbTx Unit := fun db =>
  if h : (write db.toTables).Valid then (.ok (), ⟨write db.toTables, h⟩)
  else (.error (.databaseError "constraint violation"), db)

@[simp] theorem exec_eq_ok {write : Tables → Tables} {u : Unit} :
    exec write db = (.ok u, db') ↔ db'.toTables = write db.toTables := by
  unfold exec
  split
  · constructor
    · intro h
      cases h
      rfl
    · intro h
      exact congrArg _ (Database.eq_of_tables h.symm)
  · rename_i hinvalid
    constructor
    · intro h
      cases h
    · exact fun h => absurd (h ▸ db'.valid) hinvalid

theorem exec_of_valid {write : Tables → Tables} {db : Database}
    (h : (write db.toTables).Valid) : exec write db = (.ok (), ⟨write db.toTables, h⟩) :=
  exec_eq_ok.mpr rfl

/-! ## Keyed selects -/

namespace Tables

variable (t : Tables)

/-- `SELECT * FROM user_balances WHERE tenant_id = … AND user_id = …`. -/
def balance? (p : Principal) : Option UserBalance := lookup UserBalance.principal p t.userBalances

/-- `SELECT * FROM balance_reservations WHERE request_id = …`. -/
def reservation? (requestId : Uuid) : Option BalanceReservation :=
  lookup BalanceReservation.requestId requestId t.balanceReservations

/-- `BalanceTransaction::find_consumption_by_usage_log`. -/
def consumption? (usageLogId : Uuid) : Option BalanceTransaction :=
  t.balanceTransactions.find? fun x => decide (x.consumeUsageLog = some usageLogId)

/-- `SELECT * FROM tenants WHERE id = …`. -/
def tenant? (tenantId : Uuid) : Option Tenant := lookup Tenant.id tenantId t.reference.tenants

/-- `SELECT * FROM users WHERE id = …`. -/
def user? (userId : Uuid) : Option User := lookup User.id userId t.reference.users

/-- `TenantMembership::find`: the membership, when it, its tenant and its user are active. -/
def membership? (p : Principal) : Option TenantMembership :=
  (lookup TenantMembership.principal p t.reference.memberships).filter fun m =>
    m.status = .active ∧ (t.tenant? m.tenantId).any (·.active) ∧ (t.user? m.userId).any (·.active)

end Tables

namespace Database

variable (db : Database)

theorem userBalances_unique : (db.userBalances.map UserBalance.principal).Nodup :=
  db.valid.2.1.1

theorem reservations_unique : (db.balanceReservations.map BalanceReservation.requestId).Nodup :=
  db.valid.2.2.1.1

variable {db}

theorem balance_check {b : UserBalance} (h : b ∈ db.userBalances) : b.Check :=
  (db.valid.2.1.2 b h).1

theorem reservation_check {r : BalanceReservation} (h : r ∈ db.balanceReservations) : r.Check :=
  (db.valid.2.2.1.2.2 r h).1

theorem tenant?_isSome {p : Principal} (h : (db.balance? p).isSome) :
    (db.tenant? p.tenantId).isSome := by
  obtain ⟨b, hb⟩ := Option.isSome_iff_exists.mp h
  have hprincipal := (db.valid.2.1.2 b (mem_of_lookup hb)).2
  rw [key_of_lookup hb] at hprincipal
  obtain ⟨m, member, hm⟩ := List.mem_map.mp hprincipal
  have htenant := (db.valid.1.2.2.2.2.1 m member).1
  rw [Tables.tenant?, lookup_isSome_iff, ← hm]
  exact htenant

theorem balance?_eq_some {p : Principal} {b : UserBalance} :
    db.balance? p = some b ↔ b ∈ db.userBalances ∧ b.principal = p :=
  lookup_eq_some db.userBalances_unique

theorem reservation?_eq_some {q : Uuid} {r : BalanceReservation} :
    db.reservation? q = some r ↔ r ∈ db.balanceReservations ∧ r.requestId = q :=
  lookup_eq_some db.reservations_unique

end Database

/-! ## Column updates of a wallet row -/

namespace UserBalance

variable (b : UserBalance) (δ : ℤ)

/-- `available_balance = available_balance - δ, frozen_balance = frozen_balance + δ`. -/
def hold : UserBalance :=
  { b with availableBalance := b.availableBalance - δ, frozenBalance := b.frozenBalance + δ }

/-- `available_balance = available_balance + δ, frozen_balance = frozen_balance - δ`. -/
def unhold : UserBalance :=
  { b with availableBalance := b.availableBalance + δ, frozenBalance := b.frozenBalance - δ }

/-- `available_balance = available_balance + δ, total_recharged = total_recharged + δ`. -/
def credit : UserBalance :=
  { b with availableBalance := b.availableBalance + δ, totalRecharged := b.totalRecharged + δ }

/-- `available_balance = available_balance - δ, total_consumed = total_consumed + δ`. -/
def debit : UserBalance :=
  { b with availableBalance := b.availableBalance - δ, totalConsumed := b.totalConsumed + δ }

/-- `available_balance = available_balance + reserved - δ,
frozen_balance = frozen_balance - reserved, total_consumed = total_consumed + δ`. -/
def settle (reserved : ℤ) : UserBalance :=
  { b with
    availableBalance := b.availableBalance + reserved - δ
    frozenBalance := b.frozenBalance - reserved
    totalConsumed := b.totalConsumed + δ }

@[simp] theorem principal_hold : (b.hold δ).principal = b.principal := rfl
@[simp] theorem principal_unhold : (b.unhold δ).principal = b.principal := rfl
@[simp] theorem principal_credit : (b.credit δ).principal = b.principal := rfl
@[simp] theorem principal_debit : (b.debit δ).principal = b.principal := rfl
@[simp] theorem principal_settle (reserved : ℤ) :
    (b.settle δ reserved).principal = b.principal := rfl
@[simp] theorem principal_zero (p : Principal) : (zero p).principal = p := rfl

@[simp] theorem unhold_zero : b.unhold 0 = b := by simp [unhold]
@[simp] theorem hold_zero : b.hold 0 = b := by simp [hold]

theorem settle_eq (reserved : ℤ) : b.settle δ reserved = (b.unhold reserved).debit δ := rfl

end UserBalance

/-! ## Write statements -/

namespace Tables

variable (t : Tables)

/-- `UPDATE user_balances SET f WHERE tenant_id = … AND user_id = …`. -/
def updateBalance (p : Principal) (f : UserBalance → UserBalance) : Tables :=
  { t with userBalances := updateKey UserBalance.principal p f t.userBalances }

/-- `INSERT INTO user_balances … ON CONFLICT (tenant_id, user_id) DO NOTHING`. -/
def insertBalanceIfAbsent (row : UserBalance) : Tables :=
  { t with userBalances := insertIfAbsent UserBalance.principal row t.userBalances }

/-- `UPDATE balance_reservations SET f WHERE request_id = …`. -/
def updateReservation (requestId : Uuid) (f : BalanceReservation → BalanceReservation) : Tables :=
  { t with
    balanceReservations :=
      updateKey BalanceReservation.requestId requestId f t.balanceReservations }

def insertReservation (row : BalanceReservation) : Tables :=
  { t with balanceReservations := t.balanceReservations ++ [row] }

def insertTransaction (row : BalanceTransaction) : Tables :=
  { t with balanceTransactions := t.balanceTransactions ++ [row] }

variable {t}

section Frame

variable {p : Principal} {f : UserBalance → UserBalance} {row : UserBalance} {q : Uuid}
  {g : BalanceReservation → BalanceReservation} {r : BalanceReservation} {x : BalanceTransaction}

@[simp] theorem balanceReservations_updateBalance :
    (t.updateBalance p f).balanceReservations = t.balanceReservations := rfl
@[simp] theorem balanceTransactions_updateBalance :
    (t.updateBalance p f).balanceTransactions = t.balanceTransactions := rfl
@[simp] theorem balanceReservations_insertBalanceIfAbsent :
    (t.insertBalanceIfAbsent row).balanceReservations = t.balanceReservations := rfl
@[simp] theorem balanceTransactions_insertBalanceIfAbsent :
    (t.insertBalanceIfAbsent row).balanceTransactions = t.balanceTransactions := rfl
@[simp] theorem userBalances_updateReservation :
    (t.updateReservation q g).userBalances = t.userBalances := rfl
@[simp] theorem balanceTransactions_updateReservation :
    (t.updateReservation q g).balanceTransactions = t.balanceTransactions := rfl
@[simp] theorem userBalances_insertReservation :
    (t.insertReservation r).userBalances = t.userBalances := rfl
@[simp] theorem balanceTransactions_insertReservation :
    (t.insertReservation r).balanceTransactions = t.balanceTransactions := rfl
@[simp] theorem userBalances_insertTransaction :
    (t.insertTransaction x).userBalances = t.userBalances := rfl
@[simp] theorem balanceReservations_insertTransaction :
    (t.insertTransaction x).balanceReservations = t.balanceReservations := rfl
@[simp] theorem balanceTransactions_insertTransaction :
    (t.insertTransaction x).balanceTransactions = t.balanceTransactions ++ [x] := rfl

end Frame

theorem updateBalance_of_eq {p : Principal} {f : UserBalance → UserBalance} (h : ∀ b, f b = b) :
    t.updateBalance p f = t := by
  rw [updateBalance, updateKey, updateWhere_of_forall_eq fun b _ _ => h b]

end Tables

/-- `UPDATE user_balances SET f … RETURNING *`. -/
def updateBalanceReturning (p : Principal) (f : UserBalance → UserBalance) :
    DbTx (Option UserBalance) := do
  exec (·.updateBalance p f)
  Tx.read (·.balance? p)

/-- `BalanceTransaction::create_internal`; `id` is the generated key of the row. -/
def BalanceTransaction.createInternal (id : Uuid) (p : Principal) (orderId usageLogId : Option Uuid)
    (transactionType : TransactionType) (amount balanceBefore balanceAfter : ℤ)
    (description : Option String) : DbTx BalanceTransaction := do
  let row : BalanceTransaction :=
    { id, tenantId := p.tenantId, userId := p.userId, orderId, usageLogId, transactionType,
      amount, balanceBefore, balanceAfter, currency := "CNY", description }
  exec (·.insertTransaction row)
  pure row

/-! ### What the two composite statements do -/

theorem updateBalanceReturning_eq_ok {p : Principal} {f : UserBalance → UserBalance}
    (hf : ∀ b, (f b).principal = b.principal) {row : Option UserBalance} :
    updateBalanceReturning p f db = (.ok row, db') ↔
      db'.toTables = db.toTables.updateBalance p f ∧ row = (db.balance? p).map f := by
  have hread (h : db'.toTables = db.toTables.updateBalance p f) :
      db'.balance? p = (db.balance? p).map f := by
    rw [h, Tables.balance?, Tables.updateBalance, lookup_updateKey hf, if_pos rfl]
    rfl
  simp only [updateBalanceReturning, Tx.inv, exec_eq_ok]
  constructor
  · rintro ⟨_, db₁, hwrite, hrow, rfl⟩
    exact ⟨hwrite, by rw [← hrow, hread hwrite]⟩
  · rintro ⟨hwrite, rfl⟩
    exact ⟨(), db', hwrite, hread hwrite, rfl⟩

/-- What a journal row records, apart from its key and its display columns. -/
structure BalanceTransaction.Records (x : BalanceTransaction) (p : Principal)
    (type : TransactionType) (orderId usageLogId : Option Uuid) (amount : ℤ) : Prop where
  principal : x.principal = p
  type : x.transactionType = type
  orderId : x.orderId = orderId
  usageLogId : x.usageLogId = usageLogId
  amount : x.amount = amount

theorem createInternal_inversion {id : Uuid} {p : Principal} {orderId usageLogId : Option Uuid}
    {type : TransactionType} {amount before after : ℤ} {description : Option String}
    {row : BalanceTransaction}
    (h : BalanceTransaction.createInternal id p orderId usageLogId type amount before after
      description db = (.ok row, db')) :
    row.Records p type orderId usageLogId amount ∧ row.id = id ∧
      row.balanceBefore = before ∧ row.balanceAfter = after ∧
      db'.toTables = db.toTables.insertTransaction row := by
  simp only [BalanceTransaction.createInternal, Tx.inv, exec_eq_ok] at h
  obtain ⟨_, _, hwrite, rfl, rfl⟩ := h
  exact ⟨⟨rfl, rfl, rfl, rfl, rfl⟩, rfl, rfl, rfl, hwrite⟩

/-! ### Their errors -/

def DbError.NotInsufficient (e : DbError) : Prop := e.isInsufficientBalance = false

/-- The error reports neither a missing row nor a lack of funds. -/
def DbError.Transient (e : DbError) : Prop :=
  e.isNotFound = false ∧ e.isInsufficientBalance = false

theorem DbError.NotInsufficient.violation :
    NotInsufficient (.databaseError "constraint violation") := rfl

theorem DbError.Transient.violation : Transient (.databaseError "constraint violation") :=
  ⟨rfl, rfl⟩

section Errors

variable {E : DbError → Prop} (violation : E (.databaseError "constraint violation"))

include violation

theorem exec_failsOnly (write : Tables → Tables) : (exec write).FailsOnly E := by
  intro db e db' h
  unfold exec at h
  split at h <;> cases h
  exact violation

theorem updateBalanceReturning_failsOnly (p : Principal) (f : UserBalance → UserBalance) :
    (updateBalanceReturning p f).FailsOnly E :=
  .bind (exec_failsOnly violation _) fun _ => .read _

theorem createInternal_failsOnly (id : Uuid) (p : Principal) (orderId usageLogId : Option Uuid)
    (type : TransactionType) (amount before after : ℤ) (description : Option String) :
    (BalanceTransaction.createInternal id p orderId usageLogId type amount before after
      description).FailsOnly E :=
  .bind (exec_failsOnly violation _) fun _ => .pure _

end Errors

end KeyCompute
