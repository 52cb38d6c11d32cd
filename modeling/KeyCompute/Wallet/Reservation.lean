import KeyCompute.Wallet.Reclaim

/-!
# Balance reservations

`reserve`, `settle`, `release` and `admin_release` of `keycompute-db/src/models/user_balance.rs` and
`user_balance_reservation_admin.rs`.

`settle` and `release` look the reservation up once outside their transaction and re-read it under
the wallet lock.  Their transaction bodies (`settleInTx`, `releaseInTx`) take that earlier row as
the argument `snapshot`, so a caller can be interleaved between the two reads.

For each body one inversion lemma lists everything a success can have done to the tables.
-/

namespace KeyCompute

open Relational Tx

/-! ## Authority of console calls -/

inductive FinancialAccess where
  | personal | tenantAdmin | platformTenant | platformGlobal
  deriving DecidableEq

/-- `FinancialScope`, without the session fields that only the authority checks read. -/
structure FinancialScope where
  userId : Uuid
  access : FinancialAccess
  scopeTenantId : Option Uuid

/-- The answers a call gets from the authority checks and from the append to the audit log:
`none` passes. -/
structure Authority where
  lock : Option DbError
  currentActor : Option DbError
  audit : Option DbError
  finalActor : Option DbError

def denied : DbError := .other "financial_authority_invalid"

namespace FinancialScope

def tenantId (scope : FinancialScope) : Except DbError Uuid :=
  match scope.scopeTenantId with
  | some id => .ok id
  | none => .error denied

def requireAdmin (scope : FinancialScope) : Except DbError Unit :=
  if scope.access = .tenantAdmin ∨ scope.access = .platformTenant then .ok () else .error denied

def requirePlatformTenant (scope : FinancialScope) : Except DbError Unit :=
  if scope.access = .platformTenant then .ok () else .error denied

def requirePersonal (scope : FinancialScope) : Except DbError Unit :=
  if scope.access = .personal then .ok () else .error denied

end FinancialScope

def checkAuthority : Option DbError → DbTx Unit
  | none => pure ()
  | some e => throw e

variable {db db' : Database}

@[simp] theorem checkAuthority_eq_ok {o : Option DbError} {u : Unit} :
    checkAuthority o db = (.ok u, db') ↔ o = none ∧ db = db' := by
  cases o <;> simp [checkAuthority]

/-! ## Locks every body takes first -/

/-- `Tenant::find_by_id_for_key_share(…).ok_or_else(…)`. -/
def lockTenant (tenantId : Uuid) : DbTx Unit := do
  let tenant ← read (·.tenant? tenantId)
  let _ ← okOr tenant (.notFound "tenant" (toString tenantId))
  pure ()

/-- `SELECT * FROM user_balances … FOR UPDATE`, with the error for a missing row. -/
def lockBalance (p : Principal) (missing : DbError) : DbTx UserBalance := do
  let row ← read (·.balance? p)
  okOr row missing

theorem lockTenant_eq_ok {tenantId : Uuid} {u : Unit} :
    lockTenant tenantId db = (.ok u, db') ↔ (db.tenant? tenantId).isSome ∧ db = db' := by
  simp only [lockTenant, inv]
  constructor
  · grind
  · rintro ⟨htenant, rfl⟩
    obtain ⟨tenant, htenant⟩ := Option.isSome_iff_exists.mp htenant
    exact ⟨_, rfl, tenant, htenant, trivial, rfl⟩

theorem lockBalance_eq_ok {p : Principal} {missing : DbError} {b : UserBalance} :
    lockBalance p missing db = (.ok b, db') ↔ db.balance? p = some b ∧ db = db' := by
  simp only [lockBalance, inv]
  constructor
  · grind
  · grind

/-- The locked wallet after its expired reservations were reclaimed, with the active totals
that remain. -/
def reclaimLocked (now : Timestamp) (balance : UserBalance) :
    DbTx (UserBalance × ActiveTotals) := do
  let reclaimed ← reclaimExpiredForLockedBalances now [balance]
  let current ← okOr reclaimed.balances.getLast?
    (.panicked "the locked balance must be preserved during reclamation")
  pure (current, reclaimed.activeTotals)

theorem reclaimLocked_inversion {now : Timestamp} {b current : UserBalance} {totals : ActiveTotals}
    (hb : db.balance? b.principal = some b)
    (h : reclaimLocked now b db = (.ok (current, totals), db')) :
    db'.toTables = db.toTables.reclaim [b.principal] now ∧
      db'.balance? b.principal = some current ∧
      current = b.unhold (db.expiredTotal now b.principal) ∧
      totals b.principal = some (db'.activeTotal b.principal) := by
  simp only [reclaimLocked, inv] at h
  obtain ⟨st, db₁, hreclaim, _, hcurrent, hpair, rfl⟩ := h
  cases hpair
  obtain ⟨htables, hbalances, htotals, -⟩ :=
    reclaimOne_inversion (Database.balance?_eq_some.mp hb).1 hreclaim
  rw [hbalances] at hcurrent
  have hcur : current = b.unhold (db.expiredTotal now b.principal) := by simpa using hcurrent.symm
  refine ⟨htables, ?_, hcur, htotals⟩
  rw [htables, Tables.balance?_reclaim, hb, hcur]
  simp

theorem lockTenant_failsOnly (tenantId : Uuid) :
    (lockTenant tenantId).FailsOnly DbError.NotInsufficient :=
  .bind (.read _) fun _ => .bind (.okOr rfl) fun _ => .pure _

theorem reclaimLocked_failsOnly (now : Timestamp) (b : UserBalance) :
    (reclaimLocked now b).FailsOnly DbError.NotInsufficient :=
  .bind (reclaimInner_failsOnly _ _ _) fun _ => .bind (.okOr rfl) fun _ => .pure _

/-! ## `reserve` -/

namespace BalanceReservation

def isAdministrativeReleaseTombstone (status : ReservationStatus)
    (releaseKind : Option ReleaseKind) : Bool :=
  decide (status = .released ∧ releaseKind = some .administrative)

def amountToReserve (available requested minimumAvailable : ℤ) : Except DbError ℤ :=
  if minimumAvailable < 0 then
    .error (.other "minimum available balance must not be negative")
  else if requested < 0 then
    .error (.other "balance reservation amount must not be negative")
  else if available < minimumAvailable then
    .error (.insufficientBalance minimumAvailable available)
  else
    let amount := max requested minimumAvailable
    if available < amount then .error (.insufficientBalance amount available) else .ok amount

theorem amountToReserve_nonneg {available requested minimumAvailable amount : ℤ}
    (h : amountToReserve available requested minimumAvailable = .ok amount) : 0 ≤ amount := by
  unfold amountToReserve at h
  split at h <;> try cases h
  split at h <;> try cases h
  split at h <;> try cases h
  dsimp only at h
  split at h <;> cases h
  rename_i hreq _ _
  exact le_max_of_le_left (not_lt.mp hreq)

end BalanceReservation

/-- The arguments of `BalanceReservation::reserve`. -/
structure ReserveRequest where
  tenantId : Uuid
  userId : Uuid
  requestId : Uuid
  ownerToken : Uuid
  amount : ℤ
  minimumAvailable : ℤ
  expiresAt : Timestamp

def ReserveRequest.principal (req : ReserveRequest) : Principal := ⟨req.tenantId, req.userId⟩

namespace BalanceReservation

/-- The row of a first reservation, with the column defaults of the schema. -/
def new (req : ReserveRequest) (amount : ℤ) : BalanceReservation :=
  { requestId := req.requestId, ownerToken := req.ownerToken, tenantId := req.tenantId,
    userId := req.userId, amount, status := .active, usageLogId := none,
    expiresAt := req.expiresAt, settledAt := none, releasedAt := none, releaseKind := none,
    releaseReason := none, releasedBy := none }

/-- The `SET` list that gives an existing row to a new owner. -/
def reactivate (req : ReserveRequest) (amount : ℤ) (r : BalanceReservation) : BalanceReservation :=
  { r with
    ownerToken := req.ownerToken, amount, status := .active, usageLogId := none,
    expiresAt := req.expiresAt, settledAt := none, releasedAt := none, releaseKind := none,
    releaseReason := none, releasedBy := none }

/-- The checks on an existing row of the request; the row becomes `reusable_request`. -/
def reusableRequest (req : ReserveRequest) :
    Option BalanceReservation → Except DbError (Option BalanceReservation)
  | none => .ok none
  | some existing =>
    if existing.tenantId ≠ req.tenantId ∨ existing.userId ≠ req.userId then
      .error (.other s!"balance reservation {req.requestId} belongs to another principal")
    else if existing.status = .settled then
      .error (.other s!"balance reservation {req.requestId} is already settled")
    else if isAdministrativeReleaseTombstone existing.status existing.releaseKind then
      .error (.other <|
        s!"balance reservation {req.requestId} was administratively released and " ++
          "cannot be reactivated")
    else .ok (some existing)

/-- `replaced_active_amount`: what an existing active row already holds. -/
def replacedActiveAmount : Option BalanceReservation → ℤ
  | some existing => if existing.status = .active then existing.amount else 0
  | none => 0

/-- The writes of a request that has no row yet.  With a nonzero amount they are one
statement; the insert takes its row from the moved wallet. -/
def reserveNew (req : ReserveRequest) (amount balanceDelta : ℤ) : DbTx BalanceReservation :=
  if balanceDelta ≠ 0 then do
    let moved ← read (·.balance? req.principal)
    let _ ← okOr moved (.other "create balance reservation failed")
    exec fun t => (t.updateBalance req.principal (·.hold balanceDelta)).insertReservation
      (new req amount)
    pure (new req amount)
  else do
    exec (·.insertReservation (new req amount))
    pure (new req amount)

/-- The resize of the wallet for a request that already has a row. -/
def resizeBalance (req : ReserveRequest) (balanceDelta : ℤ) : DbTx Unit :=
  if balanceDelta ≠ 0 then exec (·.updateBalance req.principal (·.hold balanceDelta)) else pure ()

def reserveAgain (req : ReserveRequest) (amount balanceDelta : ℤ) : DbTx BalanceReservation := do
  resizeBalance req balanceDelta
  exec (·.updateReservation req.requestId (reactivate req amount))
  let row ← read (·.reservation? req.requestId)
  okOr row (.other "create balance reservation failed")

/-- The transaction of `reserve`; `now` is its `NOW()`. -/
def reserveInTx (now : Timestamp) (req : ReserveRequest) : DbTx BalanceReservation := do
  lockTenant req.tenantId
  let balance ← lockBalance req.principal (.insufficientBalance req.minimumAvailable 0)
  failIf (balance.tenantId ≠ req.tenantId) (.other "balance reservation tenant mismatch")
  let (balance, _) ← reclaimLocked now balance
  let existing ← read (·.reservation? req.requestId)
  let reusable ← lift (reusableRequest req existing)
  let replaced := replacedActiveAmount existing
  let amount ← lift (amountToReserve (balance.availableBalance + replaced) req.amount
    req.minimumAvailable)
  match reusable with
  | none => reserveNew req amount (amount - replaced)
  | some _ => reserveAgain req amount (amount - replaced)

/-- `BalanceReservation::reserve`; `utcNow` is the application clock. -/
def reserve (utcNow now : Timestamp) (req : ReserveRequest) :
    Database → Except DbError BalanceReservation × Database :=
  atomically do
    let _ ← lift (amountToReserve decimalMax req.amount req.minimumAvailable)
    failIf (req.expiresAt ≤ utcNow) (.other "balance reservation expiry must be in the future")
    reserveInTx now req

variable {req : ReserveRequest} {row : BalanceReservation} {db db' : Database}

theorem reserveNew_inversion {amount δ : ℤ} (h : reserveNew req amount δ db = (.ok row, db')) :
    row = new req amount ∧ db'.toTables =
      (db.toTables.updateBalance req.principal (·.hold δ)).insertReservation (new req amount) := by
  unfold reserveNew at h
  split at h
  · grind [bind_eq_ok, read_eq_ok, okOr_eq_ok, exec_eq_ok, pure_eq_ok]
  · rename_i hδ
    rw [not_not] at hδ
    subst hδ
    simp only [inv, exec_eq_ok] at h
    obtain ⟨_, _, hwrite, rfl, rfl⟩ := h
    exact ⟨rfl, by rw [hwrite, Tables.updateBalance_of_eq UserBalance.hold_zero]⟩

theorem resizeBalance_inversion {δ : ℤ} {u : Unit} (h : resizeBalance req δ db = (.ok u, db')) :
    db'.toTables = db.toTables.updateBalance req.principal (·.hold δ) := by
  unfold resizeBalance at h
  split at h
  · exact exec_eq_ok.mp h
  · rename_i hδ
    rw [not_not] at hδ
    subst hδ
    cases h
    exact (Tables.updateBalance_of_eq UserBalance.hold_zero).symm

theorem reserveAgain_inversion {amount δ : ℤ} (h : reserveAgain req amount δ db = (.ok row, db')) :
    db'.reservation? req.requestId = some row ∧ db'.toTables =
      (db.toTables.updateBalance req.principal (·.hold δ)).updateReservation req.requestId
        (reactivate req amount) := by
  simp only [reserveAgain, inv, exec_eq_ok] at h
  obtain ⟨_, db₁, hresize, _, db₂, hwrite, _, rfl, hrow, rfl⟩ := h
  exact ⟨hrow, by rw [hwrite, resizeBalance_inversion hresize]⟩

/-- An existing row that `reserve` may take over. -/
structure Reusable (req : ReserveRequest) (existing : BalanceReservation) : Prop where
  principal : existing.principal = req.principal
  not_settled : existing.status ≠ .settled
  not_tombstone : ¬ (existing.status = .released ∧ existing.releaseKind = some .administrative)

theorem reusableRequest_eq_ok {existing reusable : Option BalanceReservation}
    (h : reusableRequest req existing = .ok reusable) :
    reusable = existing ∧ ∀ r ∈ existing, Reusable req r := by
  cases existing with
  | none =>
    cases h
    simp
  | some r =>
    simp only [reusableRequest] at h
    split at h <;> try cases h
    split at h <;> try cases h
    split at h <;> cases h
    rename_i hprincipal hsettled htomb
    refine ⟨rfl, fun r' hr' => ?_⟩
    cases hr'
    obtain ⟨htenant, huser⟩ := not_or.mp hprincipal
    rw [not_not] at htenant huser
    exact ⟨by rw [BalanceReservation.principal, ReserveRequest.principal, htenant, huser],
      hsettled, by simpa [isAdministrativeReleaseTombstone] using htomb⟩

/-- **Everything a successful `reserve` does**, to the tables in which the wallet's expired
reservations were already reclaimed: it inserts the row of a new request or takes an existing
row over, and holds the difference. -/
inductive ReserveEffect (req : ReserveRequest) (t : Tables) : Tables → Prop where
  | created {b : UserBalance} {amount : ℤ} (wallet : t.balance? req.principal = some b)
      (nonneg : 0 ≤ amount) (absent : t.reservation? req.requestId = none) :
      ReserveEffect req t ((t.updateBalance req.principal (·.hold amount)).insertReservation
        (new req amount))
  | retaken {b : UserBalance} {amount : ℤ} {existing : BalanceReservation}
      (wallet : t.balance? req.principal = some b) (nonneg : 0 ≤ amount)
      (found : t.reservation? req.requestId = some existing) (reusable : Reusable req existing) :
      ReserveEffect req t ((t.updateBalance req.principal
        (·.hold (amount - replacedActiveAmount (some existing)))).updateReservation
          req.requestId (reactivate req amount))

theorem reserveInTx_cases {now : Timestamp} (h : reserveInTx now req db = (.ok row, db')) :
    ∃ db₁ : Database, db₁.toTables = db.toTables.reclaim [req.principal] now ∧
      ReserveEffect req db₁.toTables db'.toTables := by
  simp only [reserveInTx, inv, lockTenant_eq_ok, lockBalance_eq_ok] at h
  obtain ⟨_, -, b, hb, _, -, ⟨current, totals⟩, db₁, hreclaim, existing, hexisting, reusable,
    hreusable, amount, hamount, h⟩ := h
  have hp : b.principal = req.principal := (Database.balance?_eq_some.mp hb).2
  obtain ⟨htables, hcurrent, -⟩ := reclaimLocked_inversion (hp ▸ hb) hreclaim
  rw [hp] at htables hcurrent
  obtain ⟨rfl, hall⟩ := reusableRequest_eq_ok hreusable
  refine ⟨db₁, htables, ?_⟩
  have hnonneg := amountToReserve_nonneg hamount
  cases reusable with
  | none =>
    obtain ⟨-, hwrite⟩ := reserveNew_inversion h
    simp only [replacedActiveAmount, sub_zero] at hwrite
    rw [hwrite]
    exact .created hcurrent hnonneg hexisting
  | some r =>
    rw [(reserveAgain_inversion h).2]
    exact .retaken hcurrent hnonneg hexisting (hall r rfl)

theorem reserve_cases (utcNow now : Timestamp) (req : ReserveRequest) (db : Database) :
    (reserve utcNow now req db).2 = db ∨
      ∃ db₁ : Database, db₁.toTables = db.toTables.reclaim [req.principal] now ∧
        ReserveEffect req db₁.toTables (reserve utcNow now req db).2.toTables := by
  refine (atomically_state _ db).imp id ?_
  rintro ⟨row, h⟩
  simp only [inv] at h
  obtain ⟨_, -, _, -, h⟩ := h
  exact reserveInTx_cases h

end BalanceReservation

/-! ## `settle` -/

/-- The arguments of `BalanceReservation::settle`. -/
structure SettleRequest where
  tenantId : Uuid
  userId : Uuid
  requestId : Uuid
  expectedOwnerToken : Option Uuid
  amount : ℤ
  usageLogId : Uuid
  description : Option String

namespace BalanceReservation

def settlementAvailableBalances (availableBalance reservedAmount consumedAmount : ℤ) : ℤ × ℤ :=
  let balanceBefore := availableBalance + reservedAmount
  (balanceBefore, balanceBefore - consumedAmount)

/-- `SET status = 'settled', usage_log_id = …, settled_at = NOW()`. -/
def markSettled (now : Timestamp) (usageLogId : Uuid) (r : BalanceReservation) :
    BalanceReservation :=
  { r with status := .settled, usageLogId := some usageLogId, settledAt := some now }

/-- The error for a usage log whose recorded consumption is another one. -/
def differentConsumption (usageLogId : Uuid) : DbError :=
  .other s!"usage log {usageLogId} is already bound to a different balance consumption"

def mismatched (transaction : BalanceTransaction) (userId : Uuid) (amount : ℤ) : Prop :=
  transaction.userId ≠ userId ∨ transaction.amount ≠ -amount

instance (transaction : BalanceTransaction) (userId : Uuid) (amount : ℤ) :
    Decidable (mismatched transaction userId amount) :=
  inferInstanceAs (Decidable (_ ∨ _))

/-- A settled reservation: the recorded settlement is returned again. -/
def settleReplay (req : SettleRequest) (balance : UserBalance) (reservation : BalanceReservation) :
    DbTx (Option (UserBalance × BalanceTransaction)) := do
  failIf (reservation.usageLogId ≠ some req.usageLogId) (.other
    s!"balance reservation {req.requestId} is already bound to another usage log")
  let found ← read (·.consumption? req.usageLogId)
  let transaction ← okOr found (.other
    s!"settled balance reservation {req.requestId} has no consumption transaction")
  failIf (mismatched transaction reservation.userId req.amount)
    (differentConsumption req.usageLogId)
  pure (some (balance, transaction))

/-- The usage log was already charged: the whole reservation is released. -/
def settleReconcile (now : Timestamp) (req : SettleRequest) (reservation : BalanceReservation)
    (transaction : BalanceTransaction) : DbTx (Option (UserBalance × BalanceTransaction)) := do
  failIf (mismatched transaction reservation.userId req.amount)
    (differentConsumption req.usageLogId)
  let row ← updateBalanceReturning reservation.principal (·.unhold reservation.amount)
  let updated ← okOr row (.notFound "UserBalance" (toString reservation.userId))
  exec (·.updateReservation req.requestId (markSettled now req.usageLogId))
  pure (some (updated, transaction))

/-- The first charge of the usage log, out of the reservation. -/
def settleCharge (now : Timestamp) (transactionId : Uuid) (req : SettleRequest)
    (balance : UserBalance) (reservation : BalanceReservation) :
    DbTx (Option (UserBalance × BalanceTransaction)) := do
  let (balanceBefore, balanceAfter) := settlementAvailableBalances balance.availableBalance
    reservation.amount req.amount
  let row ← updateBalanceReturning reservation.principal (·.settle req.amount reservation.amount)
  let updated ← okOr row (.notFound "UserBalance" (toString reservation.userId))
  let transaction ← BalanceTransaction.createInternal transactionId reservation.principal none
    (some req.usageLogId) .consume (-req.amount) balanceBefore balanceAfter req.description
  exec (·.updateReservation req.requestId (markSettled now req.usageLogId))
  pure (some (updated, transaction))

/-- The branch of an active reservation whose owner token was presented. -/
def settleOwned (now : Timestamp) (transactionId : Uuid) (req : SettleRequest)
    (balance : UserBalance) (reservation : BalanceReservation) :
    DbTx (Option (UserBalance × BalanceTransaction)) := do
  failIf (balance.frozenBalance < reservation.amount) (.other
    s!"balance reservation {req.requestId} exceeds frozen balance")
  let existing ← read (·.consumption? req.usageLogId)
  match existing with
  | some transaction => settleReconcile now req reservation transaction
  | none => settleCharge now transactionId req balance reservation

/-- The transaction of `settle`, after the locator read returned `snapshot`. -/
def settleInTx (now : Timestamp) (transactionId : Uuid) (snapshot : BalanceReservation)
    (req : SettleRequest) : DbTx (Option (UserBalance × BalanceTransaction)) := do
  lockTenant snapshot.tenantId
  let balance ← lockBalance snapshot.principal
    (.notFound "UserBalance" (toString snapshot.userId))
  let found ← read (·.reservation? req.requestId)
  let reservation ← okOr found (.other
    s!"balance reservation {req.requestId} disappeared during settlement")
  if reservation.status = .settled then settleReplay req balance reservation
  else if reservation.status ≠ .active then pure none
  else if some reservation.ownerToken ≠ req.expectedOwnerToken then pure none
  else settleOwned now transactionId req balance reservation

/-- The part of `settle` before its transaction: the amount check and the locator read. -/
def settleLocate (req : SettleRequest) (t : Tables) : Except DbError (Option BalanceReservation) :=
  if req.amount < 0 then .error (.other "balance settlement amount must not be negative")
  else
    match t.reservation? req.requestId with
    | none => .ok none
    | some snapshot =>
      if snapshot.tenantId ≠ req.tenantId ∨ snapshot.userId ≠ req.userId then
        .error (.userTenantMismatch req.userId req.tenantId snapshot.tenantId)
      else .ok (some snapshot)

/-- `BalanceReservation::settle`, uninterrupted. -/
def settle (now : Timestamp) (transactionId : Uuid) (req : SettleRequest) (db : Database) :
    Except DbError (Option (UserBalance × BalanceTransaction)) × Database :=
  match settleLocate req db.toTables with
  | .error e => (.error e, db)
  | .ok none => (.ok none, db)
  | .ok (some snapshot) => atomically (settleInTx now transactionId snapshot req) db

/-- **Everything a successful settlement does**, and what it returns.  Only an active
reservation whose current owner token was presented is written. -/
inductive SettleEffect (now : Timestamp) (req : SettleRequest) (t : Tables) :
    Tables → Option (UserBalance × BalanceTransaction) → Prop where
  | replayed {r : BalanceReservation} {b : UserBalance} {x : BalanceTransaction}
      (found : t.reservation? req.requestId = some r) (status : r.status = .settled)
      (charged : t.consumption? req.usageLogId = some x)
      (same : ¬ mismatched x r.userId req.amount) :
      SettleEffect now req t t (some (b, x))
  | declined {r : BalanceReservation} (found : t.reservation? req.requestId = some r)
      (unsettled : r.status ≠ .settled)
      (fenced : r.status = .active → some r.ownerToken ≠ req.expectedOwnerToken) :
      SettleEffect now req t t none
  | reconciled {r : BalanceReservation} {b : UserBalance} {x : BalanceTransaction}
      (found : t.reservation? req.requestId = some r) (status : r.status = .active)
      (owner : some r.ownerToken = req.expectedOwnerToken)
      (wallet : t.balance? r.principal = some b)
      (charged : t.consumption? req.usageLogId = some x)
      (same : ¬ mismatched x r.userId req.amount) :
      SettleEffect now req t
        ((t.updateBalance r.principal (·.unhold r.amount)).updateReservation req.requestId
          (markSettled now req.usageLogId))
        (some (b.unhold r.amount, x))
  | charged {r : BalanceReservation} {b : UserBalance} {x : BalanceTransaction}
      (found : t.reservation? req.requestId = some r) (status : r.status = .active)
      (owner : some r.ownerToken = req.expectedOwnerToken)
      (wallet : t.balance? r.principal = some b)
      (uncharged : t.consumption? req.usageLogId = none)
      (records : x.Records r.principal .consume none (some req.usageLogId) (-req.amount)) :
      SettleEffect now req t
        (((t.updateBalance r.principal (·.settle req.amount r.amount)).insertTransaction
          x).updateReservation req.requestId (markSettled now req.usageLogId))
        (some (b.settle req.amount r.amount, x))

section SettleCases

variable {now : Timestamp} {transactionId : Uuid} {req : SettleRequest} {balance : UserBalance}
  {r : BalanceReservation} {out : Option (UserBalance × BalanceTransaction)} {db db' : Database}

theorem settleReplay_cases (found : db.reservation? req.requestId = some r)
    (status : r.status = .settled) (h : settleReplay req balance r db = (.ok out, db')) :
    SettleEffect now req db.toTables db'.toTables out := by
  simp only [settleReplay, inv] at h
  obtain ⟨_, -, _, rfl, x, hx, _, hsame, rfl, rfl⟩ := h
  exact .replayed found status hx hsame

theorem settleReconcile_cases {x : BalanceTransaction}
    (found : db.reservation? req.requestId = some r) (status : r.status = .active)
    (owner : some r.ownerToken = req.expectedOwnerToken)
    (charged : db.consumption? req.usageLogId = some x)
    (h : settleReconcile now req r x db = (.ok out, db')) :
    SettleEffect now req db.toTables db'.toTables out := by
  simp only [settleReconcile, inv, exec_eq_ok,
    updateBalanceReturning_eq_ok (fun b => b.principal_unhold r.amount)] at h
  obtain ⟨_, hsame, _, db₁, ⟨hmove, hrow⟩, updated, hupdated, _, _, hwrite,
    rfl, rfl⟩ := h
  rw [hupdated, eq_comm, Option.map_eq_some_iff] at hrow
  obtain ⟨b, hb, rfl⟩ := hrow
  rw [hwrite, hmove]
  exact .reconciled found status owner hb charged hsame

theorem settleCharge_cases (found : db.reservation? req.requestId = some r)
    (status : r.status = .active) (owner : some r.ownerToken = req.expectedOwnerToken)
    (uncharged : db.consumption? req.usageLogId = none)
    (h : settleCharge now transactionId req balance r db = (.ok out, db')) :
    SettleEffect now req db.toTables db'.toTables out := by
  simp only [settleCharge, inv, exec_eq_ok,
    updateBalanceReturning_eq_ok (fun b => b.principal_settle req.amount r.amount)] at h
  obtain ⟨_, db₁, ⟨hmove, hrow⟩, updated, hupdated, x, db₂, hcreate, _, _, hwrite,
    rfl, rfl⟩ := h
  rw [hupdated, eq_comm, Option.map_eq_some_iff] at hrow
  obtain ⟨b, hb, rfl⟩ := hrow
  obtain ⟨hrecords, -, -, -, hinsert⟩ := createInternal_inversion hcreate
  rw [hwrite, hinsert, hmove]
  exact .charged found status owner hb uncharged hrecords

theorem settleInTx_cases {snapshot : BalanceReservation}
    (h : settleInTx now transactionId snapshot req db = (.ok out, db')) :
    SettleEffect now req db.toTables db'.toTables out := by
  simp only [settleInTx, inv, lockTenant_eq_ok, lockBalance_eq_ok] at h
  obtain ⟨_, -, b, -, _, rfl, r, hfound, h⟩ := h
  by_cases hsettled : r.status = .settled
  · rw [if_pos hsettled] at h
    exact settleReplay_cases hfound hsettled h
  rw [if_neg hsettled] at h
  by_cases hactive : r.status = .active
  · rw [if_neg (not_not.mpr hactive)] at h
    by_cases howner : some r.ownerToken = req.expectedOwnerToken
    · rw [if_neg (not_not.mpr howner)] at h
      simp only [settleOwned, inv] at h
      obtain ⟨_, -, existing, hexisting, h⟩ := h
      cases existing with
      | some x => exact settleReconcile_cases hfound hactive howner hexisting h
      | none => exact settleCharge_cases hfound hactive howner hexisting h
    · rw [if_pos howner] at h
      cases h
      exact .declined hfound hsettled fun _ => howner
  · rw [if_pos hactive] at h
    cases h
    exact .declined hfound hsettled fun h => absurd h hactive

theorem settle_cases {result : Except DbError (Option (UserBalance × BalanceTransaction))}
    (h : settle now transactionId req db = (result, db')) :
    db' = db ∨ ∃ out, result = .ok out ∧ SettleEffect now req db.toTables db'.toTables out := by
  unfold settle at h
  split at h
  · exact .inl (Prod.mk.inj h).2.symm
  · exact .inl (Prod.mk.inj h).2.symm
  · cases result with
    | error e => exact .inl (atomically_error_state h)
    | ok out => exact .inr ⟨out, rfl, settleInTx_cases (atomically_eq_ok.mp h)⟩

end SettleCases

end BalanceReservation

/-! ## `release` -/

/-- The arguments of `BalanceReservation::release`. -/
structure ReleaseRequest where
  tenantId : Uuid
  userId : Uuid
  requestId : Uuid
  ownerToken : Uuid

namespace BalanceReservation

/-- The `SET` list of an automatic release. -/
def markReleased (now : Timestamp) (r : BalanceReservation) : BalanceReservation :=
  { r with
    status := .released, releasedAt := some now, releaseKind := some .automatic,
    releaseReason := some "dispatch aborted before settlement", releasedBy := none }

/-- The wallet statement of `release`, skipped when nothing is held. -/
def releaseFunds (reservation : BalanceReservation) : DbTx Unit :=
  if 0 < reservation.amount then
    exec (·.updateBalance reservation.principal (·.unhold reservation.amount))
  else pure ()

/-- The branch of an active reservation whose owner token was presented. -/
def releaseOwned (now : Timestamp) (req : ReleaseRequest) (balance : UserBalance)
    (reservation : BalanceReservation) : DbTx Bool := do
  failIf (balance.frozenBalance < reservation.amount) (.other
    s!"balance reservation {req.requestId} exceeds frozen balance")
  releaseFunds reservation
  exec (·.updateReservation req.requestId (markReleased now))
  pure true

/-- The transaction of `release`, after the locator read returned `snapshot`. -/
def releaseInTx (now : Timestamp) (snapshot : BalanceReservation) (req : ReleaseRequest) :
    DbTx Bool := do
  lockTenant snapshot.tenantId
  let balance ← lockBalance snapshot.principal
    (.notFound "UserBalance" (toString snapshot.userId))
  let found ← read (·.reservation? req.requestId)
  let reservation ← okOr found (.other
    s!"balance reservation {req.requestId} disappeared during release")
  if reservation.status ≠ .active ∨ reservation.ownerToken ≠ req.ownerToken then pure false
  else releaseOwned now req balance reservation

/-- The locator read of `release`: the row to release, if the caller may. -/
def releaseLocate (req : ReleaseRequest) (t : Tables) : Option BalanceReservation :=
  (t.reservation? req.requestId).filter fun snapshot =>
    snapshot.tenantId = req.tenantId ∧ snapshot.userId = req.userId ∧
      snapshot.ownerToken = req.ownerToken

/-- `BalanceReservation::release`, uninterrupted. -/
def release (now : Timestamp) (req : ReleaseRequest) (db : Database) :
    Except DbError Bool × Database :=
  match releaseLocate req db.toTables with
  | none => (.ok false, db)
  | some snapshot => atomically (releaseInTx now snapshot req) db

inductive ReleaseEffect (now : Timestamp) (req : ReleaseRequest) (t : Tables) :
    Tables → Bool → Prop where
  | declined {r : BalanceReservation} (found : t.reservation? req.requestId = some r)
      (fenced : r.status ≠ .active ∨ r.ownerToken ≠ req.ownerToken) :
      ReleaseEffect now req t t false
  | released {r : BalanceReservation} (found : t.reservation? req.requestId = some r)
      (status : r.status = .active) (owner : r.ownerToken = req.ownerToken) :
      ReleaseEffect now req t
        ((t.updateBalance r.principal (·.unhold r.amount)).updateReservation req.requestId
          (markReleased now)) true

variable {db db' : Database}

theorem releaseFunds_inversion {r : BalanceReservation} {u : Unit} (nonneg : 0 ≤ r.amount)
    (h : releaseFunds r db = (.ok u, db')) :
    db'.toTables = db.toTables.updateBalance r.principal (·.unhold r.amount) := by
  unfold releaseFunds at h
  split at h
  · exact exec_eq_ok.mp h
  · have hzero : r.amount = 0 := by omega
    cases h
    rw [hzero]
    exact (Tables.updateBalance_of_eq UserBalance.unhold_zero).symm

theorem releaseInTx_cases {now : Timestamp} {snapshot : BalanceReservation} {req : ReleaseRequest}
    {out : Bool} (h : releaseInTx now snapshot req db = (.ok out, db')) :
    ReleaseEffect now req db.toTables db'.toTables out := by
  simp only [releaseInTx, inv, lockTenant_eq_ok, lockBalance_eq_ok] at h
  obtain ⟨_, -, b, -, _, rfl, r, hfound, h⟩ := h
  by_cases hfenced : r.status ≠ .active ∨ r.ownerToken ≠ req.ownerToken
  · rw [if_pos hfenced] at h
    cases h
    exact .declined hfound hfenced
  · rw [if_neg hfenced] at h
    simp only [not_or, not_not] at hfenced
    simp only [releaseOwned, inv, exec_eq_ok] at h
    obtain ⟨_, -, _, db₁, hfunds, _, _, hwrite, rfl, rfl⟩ := h
    have hnonneg := (Database.reservation_check (Database.reservation?_eq_some.mp hfound).1).1
    rw [hwrite, releaseFunds_inversion hnonneg hfunds]
    exact .released hfound hfenced.1 hfenced.2

theorem release_cases {now : Timestamp} {req : ReleaseRequest} {result : Except DbError Bool}
    (h : release now req db = (result, db')) :
    db' = db ∨ ∃ out, result = .ok out ∧ ReleaseEffect now req db.toTables db'.toTables out := by
  unfold release at h
  split at h
  · exact .inl (Prod.mk.inj h).2.symm
  · cases result with
    | error e => exact .inl (atomically_error_state h)
    | ok out => exact .inr ⟨out, rfl, releaseInTx_cases (atomically_eq_ok.mp h)⟩

end BalanceReservation

/-! ## `admin_release` -/

structure UserBalanceBreakdown where
  balance : UserBalance
  activeReserved : ℤ
  manuallyFrozen : ℤ

structure ReleaseReservationCommand where
  userId : Uuid
  requestId : Uuid
  expectedOwnerToken : Uuid
  reason : String

structure AdminRequestReservationRelease where
  breakdown : UserBalanceBreakdown
  releasedReservation : BalanceReservation

namespace BalanceReservation

/-- `MAX_BALANCE_RESERVATION_RELEASE_REASON_CHARS`. -/
def maxReleaseReasonChars : Nat := 1000

def breakdownWithActiveTotal (balance : UserBalance) (activeReserved : ℤ) :
    Except DbError UserBalanceBreakdown :=
  if balance.frozenBalance < activeReserved then
    .error (.other
      s!"active balance reservations for user {balance.userId} exceed frozen balance")
  else
    .ok { balance, activeReserved, manuallyFrozen := balance.frozenBalance - activeReserved }

def breakdownForLockedBalance (balance : UserBalance) : DbTx UserBalanceBreakdown := do
  let activeReserved ← read (·.activeTotal balance.principal)
  lift (breakdownWithActiveTotal balance activeReserved)

def findRecoveryTarget (p : Principal) (requestId : Uuid) (t : Tables) :
    Option BalanceReservation :=
  (t.reservation? requestId).filter fun r => decide (r.principal = p)

/-- The `SET` list of an administrative release. -/
def markAdministrativelyReleased (clock : Timestamp) (reason : String) (releasedBy : Uuid)
    (r : BalanceReservation) : BalanceReservation :=
  { r with
    status := .released, releasedAt := some clock, releaseKind := some .administrative,
    releaseReason := some reason, releasedBy := some releasedBy }

/-- The row update of `release_recovery_in_tx`, with its `WHERE` and `RETURNING` clauses. -/
def releaseRecoveryTarget (clock : Timestamp) (p : Principal) (releasedBy : Uuid) (reason : String)
    (command : ReleaseReservationCommand) : DbTx (Option BalanceReservation) := do
  let target ← read fun db => (findRecoveryTarget p command.requestId db.toTables).filter
    fun r => r.ownerToken = command.expectedOwnerToken ∧ r.status = .active
  match target with
  | none => pure none
  | some r => do
    exec (·.updateReservation command.requestId
      (markAdministrativelyReleased clock reason releasedBy))
    pure (some (markAdministrativelyReleased clock reason releasedBy r))

/-- The branch of a reservation that is no longer active: a repeated call sees its own
tombstone again. -/
def releaseRecoveryReplay (scope : FinancialScope) (reason : String) (balance : UserBalance)
    (reservation : BalanceReservation) : DbTx (Option AdminRequestReservationRelease) :=
  if isAdministrativeReleaseTombstone reservation.status reservation.releaseKind ∧
      reservation.releasedBy = some scope.userId ∧ reservation.releaseReason = some reason then do
    let breakdown ← breakdownForLockedBalance balance
    pure (some { breakdown, releasedReservation := reservation })
  else pure none

/-- The branch of an active reservation that the scope may release. -/
def releaseRecoveryActive (clock : Timestamp) (scope : FinancialScope) (authority : Authority)
    (p : Principal) (reason : String) (command : ReleaseReservationCommand)
    (balance : UserBalance) (reservation : BalanceReservation) :
    DbTx (Option AdminRequestReservationRelease) := do
  failIf (balance.frozenBalance < reservation.amount)
    (.other "financial_reservation_inconsistent")
  let row ← updateBalanceReturning p (·.unhold reservation.amount)
  let updated ← okOr row (.notFound "UserBalance" (toString command.userId))
  let row ← releaseRecoveryTarget clock p scope.userId reason command
  let released ← okOr row (.other "financial_reservation_changed")
  checkAuthority authority.audit
  let breakdown ← breakdownForLockedBalance updated
  pure (some { breakdown, releasedReservation := released })

/-- The part of `release_recovery_in_tx` after the target row was seen. -/
def releaseRecoveryLocked (utcNow clock : Timestamp) (scope : FinancialScope)
    (authority : Authority) (p : Principal) (command : ReleaseReservationCommand) :
    DbTx (Option AdminRequestReservationRelease) := do
  let balance ← lockBalance p (.notFound "UserBalance" (toString command.userId))
  let found ← read fun db => findRecoveryTarget p command.requestId db.toTables
  let reservation ← okOr found (.notFound "Balance reservation" (toString command.requestId))
  checkAuthority authority.currentActor
  if reservation.ownerToken ≠ command.expectedOwnerToken then pure none
  else if reservation.status ≠ .active then
    releaseRecoveryReplay scope (Text.trim command.reason) balance reservation
  else if scope.access = .tenantAdmin ∧ utcNow < reservation.expiresAt then pure none
  else
    releaseRecoveryActive clock scope authority p (Text.trim command.reason) command balance
      reservation

/-- `BalanceReservation::release_recovery_in_tx`; `utcNow` is the application clock and
`clock` the value of `clock_timestamp()`. -/
def releaseRecoveryInTx (utcNow clock : Timestamp) (scope : FinancialScope)
    (authority : Authority) (command : ReleaseReservationCommand) :
    DbTx (Option AdminRequestReservationRelease) := do
  let tenantId ← lift scope.tenantId
  checkAuthority authority.lock
  let target ← read fun db =>
    findRecoveryTarget ⟨tenantId, command.userId⟩ command.requestId db.toTables
  match target with
  | none => pure none
  | some _ => releaseRecoveryLocked utcNow clock scope authority ⟨tenantId, command.userId⟩ command

/-- The checks of `admin_release` before its transaction. -/
def adminReleaseCheck (scope : FinancialScope) (command : ReleaseReservationCommand) :
    Except DbError Unit := do
  scope.requireAdmin
  if command.userId.isNil ∨ command.requestId.isNil ∨ command.expectedOwnerToken.isNil then
    .error (.other "financial_target_invalid")
  else
    let reason := Text.trim command.reason
    if reason = "" ∨ maxReleaseReasonChars < reason.length ∨ reason.toList.any Text.isControl then
      .error (.other "financial_reason_invalid")
    else .ok ()

def adminRelease (utcNow clock : Timestamp) (scope : FinancialScope) (authority : Authority)
    (command : ReleaseReservationCommand) :
    Database → Except DbError (Option AdminRequestReservationRelease) × Database :=
  atomically do
    lift (adminReleaseCheck scope command)
    let result ← releaseRecoveryInTx utcNow clock scope authority command
    checkAuthority authority.finalActor
    pure result

inductive AdminReleaseEffect (clock : Timestamp) (scope : FinancialScope)
    (command : ReleaseReservationCommand) (t : Tables) : Tables → Prop where
  | unchanged : AdminReleaseEffect clock scope command t t
  | released {r : BalanceReservation} {b : UserBalance}
      (found : t.reservation? command.requestId = some r) (status : r.status = .active)
      (owner : r.ownerToken = command.expectedOwnerToken)
      (wallet : t.balance? r.principal = some b) :
      AdminReleaseEffect clock scope command t
        ((t.updateBalance r.principal (·.unhold r.amount)).updateReservation command.requestId
          (markAdministrativelyReleased clock (Text.trim command.reason) scope.userId))

section AdminReleaseCases

variable {utcNow clock : Timestamp} {scope : FinancialScope} {authority : Authority}
  {command : ReleaseReservationCommand} {p : Principal} {db db' : Database}

variable {out : Option AdminRequestReservationRelease} {r : BalanceReservation} {b : UserBalance}

theorem findRecoveryTarget_eq_some {t : Tables} {requestId : Uuid} :
    findRecoveryTarget p requestId t = some r ↔
      t.reservation? requestId = some r ∧ r.principal = p := by
  simp [findRecoveryTarget, Option.filter_eq_some_iff]

theorem breakdownForLockedBalance_state {breakdown : UserBalanceBreakdown}
    (h : breakdownForLockedBalance b db = (.ok breakdown, db')) : db' = db := by
  simp only [breakdownForLockedBalance, inv] at h
  obtain ⟨_, -, -, rfl⟩ := h
  rfl

theorem releaseRecoveryReplay_state {reason : String}
    (h : releaseRecoveryReplay scope reason b r db = (.ok out, db')) : db' = db := by
  unfold releaseRecoveryReplay at h
  split at h
  · obtain ⟨_, _, hbreakdown, h⟩ := bind_eq_ok.mp h
    cases h
    exact breakdownForLockedBalance_state hbreakdown
  · exact (pure_eq_ok.mp h).2.symm

theorem releaseRecoveryTarget_inversion {releasedBy : Uuid} {reason : String}
    {row : BalanceReservation}
    (h : releaseRecoveryTarget clock p releasedBy reason command db = (.ok (some row), db')) :
    db'.toTables = db.toTables.updateReservation command.requestId
      (markAdministrativelyReleased clock reason releasedBy) := by
  obtain ⟨target, _, htarget, h⟩ := bind_eq_ok.mp h
  obtain ⟨-, rfl⟩ := read_eq_ok.mp htarget
  cases target with
  | none => cases (pure_eq_ok.mp h).1
  | some r => grind [bind_eq_ok, exec_eq_ok, pure_eq_ok]

theorem releaseRecoveryActive_cases (found : db.reservation? command.requestId = some r)
    (principal : r.principal = p) (status : r.status = .active)
    (owner : r.ownerToken = command.expectedOwnerToken)
    (h : releaseRecoveryActive clock scope authority p (Text.trim command.reason) command b r db =
      (.ok out, db')) :
    AdminReleaseEffect clock scope command db.toTables db'.toTables := by
  subst principal
  simp only [releaseRecoveryActive, inv, checkAuthority_eq_ok,
    updateBalanceReturning_eq_ok (fun b => b.principal_unhold r.amount)] at h
  obtain ⟨_, -, _, db₁, ⟨hmove, hrow⟩, updated, hupdated, _, db₂, htarget,
    row, rfl, _, -, _, _, hbreakdown, -, rfl⟩ := h
  rw [hupdated, eq_comm, Option.map_eq_some_iff] at hrow
  obtain ⟨b', hb', -⟩ := hrow
  rw [breakdownForLockedBalance_state hbreakdown, releaseRecoveryTarget_inversion htarget, hmove]
  exact .released found status owner hb'

theorem releaseRecoveryInTx_cases
    (h : releaseRecoveryInTx utcNow clock scope authority command db = (.ok out, db')) :
    AdminReleaseEffect clock scope command db.toTables db'.toTables := by
  simp only [releaseRecoveryInTx, inv, checkAuthority_eq_ok] at h
  obtain ⟨tenantId, -, _, -, target, -, h⟩ := h
  cases target with
  | none =>
    cases h
    exact .unchanged
  | some _ =>
    simp only [releaseRecoveryLocked, inv, lockBalance_eq_ok, checkAuthority_eq_ok] at h
    obtain ⟨b, -, _, rfl, r, hfound, _, -, h⟩ := h
    obtain ⟨hfound, hprincipal⟩ := findRecoveryTarget_eq_some.mp hfound
    split at h
    · cases h
      exact .unchanged
    rename_i howner
    split at h
    · rw [releaseRecoveryReplay_state h]
      exact .unchanged
    rename_i hactive
    split at h
    · cases h
      exact .unchanged
    · grind [releaseRecoveryActive_cases]

theorem adminRelease_cases (utcNow clock : Timestamp) (scope : FinancialScope)
    (authority : Authority) (command : ReleaseReservationCommand) (db : Database) :
    AdminReleaseEffect clock scope command db.toTables
      (adminRelease utcNow clock scope authority command db).2.toTables := by
  refine atomically_rel (R := fun (db db' : Database) =>
    AdminReleaseEffect clock scope command db.toTables db'.toTables) .unchanged fun out db' h => ?_
  simp only [inv, checkAuthority_eq_ok] at h
  obtain ⟨_, -, _, _, h, _, -, -, rfl⟩ := h
  exact releaseRecoveryInTx_cases h

end AdminReleaseCases

end BalanceReservation

end KeyCompute
