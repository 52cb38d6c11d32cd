import KeyCompute.Wallet.Reservation

/-!
# Wallet operations

The operations of `UserBalance` share two halves.  `lockReclaimed` is how `consume`, `freeze` and
`unfreeze` begin: tenant, wallet row, reclamation.  `moveLocked` is how every one of them ends: one
update of the wallet row and one journal row.  What lies between are the checks of the single
operation.

Each body has one inversion lemma, in terms of the tables after reclamation.  All errors roll back
except one: `unfreeze` keeps the reclamation when the manually frozen funds do not cover the
request.
-/

namespace KeyCompute

open Relational Tx

/-! ## Shared halves -/

/-- The start of `consume`, `freeze` and `unfreeze`; `operation` is the word in the error. -/
def lockReclaimed (now : Timestamp) (operation : String) (p : Principal) :
    DbTx (UserBalance × ActiveTotals) := do
  lockTenant p.tenantId
  let balance ← lockBalance p (.notFound "UserBalance" (toString p.userId))
  failIf (balance.tenantId ≠ p.tenantId) (.other
    s!"balance {operation} tenant changed from {p.tenantId} to {balance.tenantId}")
  reclaimLocked now balance

variable {db db' : Database} {p : Principal} {missing : DbError}

theorem lockReclaimed_inversion {now : Timestamp} {operation : String} {current : UserBalance}
    {totals : ActiveTotals} (h : lockReclaimed now operation p db = (.ok (current, totals), db')) :
    db'.toTables = db.toTables.reclaim [p] now ∧ db'.balance? p = some current ∧
      totals p = some (db'.activeTotal p) := by
  simp only [lockReclaimed, inv, lockTenant_eq_ok, lockBalance_eq_ok] at h
  obtain ⟨_, -, b, hb, _, -, h⟩ := h
  have hp : b.principal = p := (Database.balance?_eq_some.mp hb).2
  subst hp
  obtain ⟨htables, hcurrent, -, htotals⟩ := reclaimLocked_inversion hb h
  exact ⟨htables, hcurrent, htotals⟩

/-- With the wallet present, the start of an operation never misses a row. -/
theorem lockReclaimed_transient {now : Timestamp} {operation : String} {e : DbError}
    (wallet : (db.balance? p).isSome) (h : lockReclaimed now operation p db = (.error e, db')) :
    e.Transient := by
  obtain ⟨b, hb⟩ := Option.isSome_iff_exists.mp wallet
  have htenant : lockTenant p.tenantId db = (.ok (), db) :=
    lockTenant_eq_ok.mpr ⟨Database.tenant?_isSome wallet, rfl⟩
  rw [lockReclaimed, bind_of_ok htenant, bind_of_ok (lockBalance_eq_ok.mpr ⟨hb, rfl⟩)] at h
  rcases bind_eq_error.mp h with h | ⟨_, _, hcheck, h⟩
  · exact FailsOnly.failIf ⟨rfl, rfl⟩ h
  · obtain ⟨-, rfl⟩ := failIf_eq_ok.mp hcheck
    rcases bind_eq_error.mp h with h | ⟨st, db₁, -, h⟩
    · exact reclaimOne_transient (Database.balance?_eq_some.mp hb).1 h
    · rcases bind_eq_error.mp h with h | ⟨_, _, -, h⟩
      · exact FailsOnly.okOr ⟨rfl, rfl⟩ h
      · cases h

theorem lockReclaimed_failsOnly (now : Timestamp) (operation : String) (p : Principal) :
    (lockReclaimed now operation p).FailsOnly DbError.NotInsufficient :=
  .bind (lockTenant_failsOnly _) fun _ => .bind (.bind (.read _) fun _ => .okOr rfl) fun _ =>
    .bind (.failIf rfl) fun _ => reclaimLocked_failsOnly _ _

/-- The end of every operation: the update of the locked wallet and its journal row. -/
def moveLocked (transactionId : Uuid) (p : Principal) (f : UserBalance → UserBalance)
    (missing : DbError) (orderId usageLogId : Option Uuid) (type : TransactionType)
    (amount balanceBefore balanceAfter : ℤ) (description : Option String) :
    DbTx (UserBalance × BalanceTransaction) := do
  let row ← updateBalanceReturning p f
  let updated ← okOr row missing
  let transaction ← BalanceTransaction.createInternal transactionId p orderId usageLogId type
    amount balanceBefore balanceAfter description
  pure (updated, transaction)

/-- The outcome of `moveLocked`. -/
structure Moved (t : Tables) (p : Principal) (f : UserBalance → UserBalance)
    (type : TransactionType) (orderId usageLogId : Option Uuid) (amount : ℤ)
    (out : UserBalance × BalanceTransaction) (t' : Tables) : Prop where
  wallet : ∃ b, t.balance? p = some b ∧ out.1 = f b
  records : out.2.Records p type orderId usageLogId amount
  tables : t' = (t.updateBalance p f).insertTransaction out.2

theorem moveLocked_inversion {transactionId : Uuid} {f : UserBalance → UserBalance}
    (hf : ∀ b, (f b).principal = b.principal) {orderId usageLogId : Option Uuid}
    {type : TransactionType} {amount before after : ℤ} {description : Option String}
    {out : UserBalance × BalanceTransaction}
    (h : moveLocked transactionId p f missing orderId usageLogId type amount before after
      description db = (.ok out, db')) :
    Moved db.toTables p f type orderId usageLogId amount out db'.toTables ∧
      out.2.id = transactionId ∧ out.2.balanceBefore = before ∧ out.2.balanceAfter = after := by
  simp only [moveLocked, inv, updateBalanceReturning_eq_ok hf] at h
  obtain ⟨_, db₁, ⟨hmove, hrow⟩, updated, hupdated, x, db₂, hcreate, rfl, rfl⟩ := h
  rw [hupdated, eq_comm, Option.map_eq_some_iff] at hrow
  obtain ⟨b, hb, rfl⟩ := hrow
  obtain ⟨hrecords, hid, hbefore, hafter, hinsert⟩ := createInternal_inversion hcreate
  exact ⟨⟨⟨b, hb, rfl⟩, hrecords, by rw [hinsert, hmove]⟩, hid, hbefore, hafter⟩

theorem moveLocked_failsOnly (transactionId : Uuid) (p : Principal) (f : UserBalance → UserBalance)
    (hmissing : missing.NotInsufficient) (orderId usageLogId : Option Uuid) (type : TransactionType)
    (amount before after : ℤ) (description : Option String) :
    (moveLocked transactionId p f missing orderId usageLogId type amount before after
      description).FailsOnly DbError.NotInsufficient :=
  .bind (updateBalanceReturning_failsOnly .violation _ _) fun _ => .bind (.okOr hmissing) fun _ =>
    .bind (createInternal_failsOnly .violation ..) fun _ => .pure _

theorem moveLocked_transient {transactionId : Uuid} {f : UserBalance → UserBalance}
    (hf : ∀ b, (f b).principal = b.principal) {orderId usageLogId : Option Uuid}
    {type : TransactionType} {amount before after : ℤ} {description : Option String} {e : DbError}
    (wallet : (db.balance? p).isSome)
    (h : moveLocked transactionId p f missing orderId usageLogId type amount before after
      description db = (.error e, db')) : e.Transient := by
  obtain ⟨b, hb⟩ := Option.isSome_iff_exists.mp wallet
  rcases bind_eq_error.mp h with h | ⟨row, db₁, hrow, h⟩
  · exact updateBalanceReturning_failsOnly .violation _ _ h
  · obtain ⟨-, hrow⟩ := (updateBalanceReturning_eq_ok hf).mp hrow
    rw [hb] at hrow
    subst hrow
    rw [Option.map_some, bind_of_ok (okOr_eq_ok.mpr ⟨rfl, rfl⟩)] at h
    rcases bind_eq_error.mp h with h | ⟨x, db₂, -, h⟩
    · exact createInternal_failsOnly .violation _ _ _ _ _ _ _ _ _ h
    · cases h

/-- The upsert of `credit_tips`, and the insert and update of `recharge`. -/
def Tables.creditOrInsert (p : Principal) (amount : ℤ) (t : Tables) : Tables :=
  (t.insertBalanceIfAbsent (.zero p)).updateBalance p (·.credit amount)

namespace UserBalance

/-! ## `get_or_create` -/

/-- The identity checks of a call that may create a wallet. -/
def requireMember (p : Principal) : DbTx Unit := do
  lockTenant p.tenantId
  let user ← read (·.user? p.userId)
  let _ ← okOr user (.notFound "user" (toString p.userId))
  let membership ← read (·.membership? p)
  let _ ← okOr membership (.userTenantMismatch p.userId p.tenantId p.tenantId)
  pure ()

variable {db db' : Database} {out : UserBalance × BalanceTransaction} {description : Option String}
  {p : Principal} {transactionId : Uuid} {amount : ℤ}

theorem requireMember_state {u : Unit} (h : requireMember p db = (.ok u, db')) : db' = db := by
  simp only [requireMember, inv, lockTenant_eq_ok] at h
  obtain ⟨_, -, _, -, _, -, _, -, _, -, -, rfl⟩
    := h
  rfl

def getOrCreateInTx (p : Principal) : DbTx UserBalance := do
  requireMember p
  exec (·.insertBalanceIfAbsent (zero p))
  let row ← read (·.balance? p)
  let balance ← okOr row (.other "get_or_create failed")
  failIf (balance.tenantId ≠ p.tenantId) (.other
    s!"balance belongs to tenant {balance.tenantId}, requested {p.tenantId}")
  pure balance

def getOrCreate (p : Principal) : Database → Except DbError UserBalance × Database :=
  atomically (getOrCreateInTx p)

theorem getOrCreateInTx_inversion {b : UserBalance} (h : getOrCreateInTx p db = (.ok b, db')) :
    db'.toTables = db.toTables.insertBalanceIfAbsent (zero p) := by
  simp only [getOrCreateInTx, inv, exec_eq_ok] at h
  obtain ⟨_, _, hmember, _, db₁, hwrite, _, -, _, -, _, -, -, rfl⟩
    := h
  rw [hwrite, requireMember_state hmember]

/-! ## `recharge` -/

def rechargeInTx (transactionId : Uuid) (p : Principal) (amount : ℤ) (orderId : Option Uuid)
    (description : Option String) : DbTx (UserBalance × BalanceTransaction) := do
  failIf (amount ≤ 0) (.other "balance recharge amount must be greater than zero")
  lockTenant p.tenantId
  exec (·.insertBalanceIfAbsent (zero p))
  let balance ← lockBalance p (.other "recharge balance row disappeared")
  failIf (balance.tenantId ≠ p.tenantId) (.other <|
    s!"balance recharge tenant mismatch: balance belongs to {balance.tenantId}, " ++
      s!"requested {p.tenantId}")
  moveLocked transactionId p (·.credit amount) (.other "recharge balance update failed") orderId
    none .recharge amount balance.availableBalance (balance.availableBalance + amount) description

def recharge (transactionId : Uuid) (p : Principal) (amount : ℤ) (orderId : Option Uuid)
    (description : Option String) :
    Database → Except DbError (UserBalance × BalanceTransaction) × Database :=
  atomically (rechargeInTx transactionId p amount orderId description)

theorem rechargeInTx_inversion {orderId : Option Uuid}
    (h : rechargeInTx transactionId p amount orderId description db = (.ok out, db')) :
    0 < amount ∧ out.2.Records p .recharge orderId none amount ∧ out.2.id = transactionId ∧
      db'.toTables = (db.toTables.creditOrInsert p amount).insertTransaction out.2 := by
  simp only [rechargeInTx, inv, lockTenant_eq_ok, exec_eq_ok, lockBalance_eq_ok] at h
  obtain ⟨_, hpos, _, -, _, db₁, hwrite, b, -, _, -, h⟩
    := h
  obtain ⟨hmoved, hid, -⟩ := moveLocked_inversion (fun b => b.principal_credit amount) h
  exact ⟨not_le.mp hpos, hmoved.records, hid, by rw [hmoved.tables, hwrite, Tables.creditOrInsert]⟩

/-! ## `consume` -/

/-- The part of `consume_in_tx` after the lookup of the usage log. -/
def consumeLocked (transactionId : Uuid) (p : Principal) (amount : ℤ) (usageLogId : Option Uuid)
    (description : Option String) (balance : UserBalance) :
    DbTx (UserBalance × BalanceTransaction) := do
  failIf (balance.availableBalance < amount ∧ usageLogId = none)
    (.insufficientBalance amount balance.availableBalance)
  moveLocked transactionId p (·.debit amount) (.notFound "UserBalance" (toString p.userId)) none
    usageLogId .consume (-amount) balance.availableBalance (balance.availableBalance - amount)
    description

/-- A usage log that was charged before: the recorded consumption is returned again. -/
def consumeReplay (p : Principal) (amount : ℤ) (usageLogId : Uuid) (balance : UserBalance)
    (transaction : BalanceTransaction) : DbTx (UserBalance × BalanceTransaction) := do
  failIf (BalanceReservation.mismatched transaction p.userId amount)
    (BalanceReservation.differentConsumption usageLogId)
  pure (balance, transaction)

/-- The part of `consume_in_tx` for a charge that names its usage log. -/
def consumeLogged (transactionId : Uuid) (p : Principal) (amount : ℤ) (usageLogId : Uuid)
    (description : Option String) (balance : UserBalance) :
    DbTx (UserBalance × BalanceTransaction) := do
  let existing ← read (·.consumption? usageLogId)
  match existing with
  | some transaction => consumeReplay p amount usageLogId balance transaction
  | none => consumeLocked transactionId p amount (some usageLogId) description balance

def consumeInTx (now : Timestamp) (transactionId : Uuid) (p : Principal) (amount : ℤ)
    (usageLogId : Option Uuid) (description : Option String) :
    DbTx (UserBalance × BalanceTransaction) := do
  let (balance, _) ← lockReclaimed now "consumption" p
  match usageLogId with
  | some log => consumeLogged transactionId p amount log description balance
  | none => consumeLocked transactionId p amount none description balance

def consume (now : Timestamp) (transactionId : Uuid) (p : Principal) (amount : ℤ)
    (usageLogId : Option Uuid) (description : Option String) :
    Database → Except DbError (UserBalance × BalanceTransaction) × Database :=
  atomically do
    failIf (amount < 0 ∨ (amount = 0 ∧ usageLogId = none)) (.other <|
      "balance consumption amount must be greater than zero unless it records a " ++
        "zero-cost usage ledger entry")
    consumeInTx now transactionId p amount usageLogId description

/-- **Everything a successful consumption does**, to the tables after reclamation. -/
inductive ConsumeEffect (p : Principal) (amount : ℤ) (usageLogId : Option Uuid) (t : Tables) :
    Tables → UserBalance × BalanceTransaction → Prop where
  | replayed {log : Uuid} {b : UserBalance} {x : BalanceTransaction} (named : usageLogId = some log)
      (recorded : t.consumption? log = some x)
      (same : ¬ BalanceReservation.mismatched x p.userId amount) :
      ConsumeEffect p amount usageLogId t t (b, x)
  | charged {out : UserBalance × BalanceTransaction} {t' : Tables}
      (unrecorded : ∀ log ∈ usageLogId, t.consumption? log = none)
      (moved : Moved t p (·.debit amount) .consume none usageLogId (-amount) out t') :
      ConsumeEffect p amount usageLogId t t' out

section ConsumeCases

variable {now : Timestamp} {transactionId : Uuid} {p : Principal} {amount : ℤ}
  {usageLogId : Option Uuid} {description : Option String} {b : UserBalance}
  {out : UserBalance × BalanceTransaction} {db db' : Database}

theorem consumeLocked_cases (unrecorded : ∀ log ∈ usageLogId, db.consumption? log = none)
    (h : consumeLocked transactionId p amount usageLogId description b db = (.ok out, db')) :
    ConsumeEffect p amount usageLogId db.toTables db'.toTables out := by
  obtain ⟨_, _, hcheck, h⟩ := bind_eq_ok.mp h
  obtain ⟨-, rfl⟩ := failIf_eq_ok.mp hcheck
  exact .charged unrecorded (moveLocked_inversion (fun b => b.principal_debit amount) h).1

theorem consumeInTx_cases
    (h : consumeInTx now transactionId p amount usageLogId description db = (.ok out, db')) :
    ∃ db₁ : Database, db₁.toTables = db.toTables.reclaim [p] now ∧
      ConsumeEffect p amount usageLogId db₁.toTables db'.toTables out := by
  obtain ⟨⟨b, totals⟩, db₁, hlock, h⟩ := bind_eq_ok.mp h
  refine ⟨db₁, (lockReclaimed_inversion hlock).1, ?_⟩
  cases usageLogId with
  | none => exact consumeLocked_cases (by simp) h
  | some log =>
    obtain ⟨existing, _, hread, h⟩ := bind_eq_ok.mp h
    obtain ⟨hexisting, rfl⟩ := read_eq_ok.mp hread
    cases existing with
    | some x =>
      simp only [consumeReplay, inv] at h
      obtain ⟨_, hsame, rfl, rfl⟩ := h
      exact .replayed rfl hexisting hsame
    | none => exact consumeLocked_cases (by simpa using hexisting) h

theorem consumeInTx_unlogged
    (h : consumeInTx now transactionId p amount none description db = (.ok out, db')) :
    ∃ db₁ : Database, db₁.toTables = db.toTables.reclaim [p] now ∧
      Moved db₁.toTables p (·.debit amount) .consume none none (-amount) out db'.toTables := by
  obtain ⟨⟨b, totals⟩, db₁, hlock, h⟩ := bind_eq_ok.mp h
  obtain ⟨_, _, hcheck, h⟩ := bind_eq_ok.mp h
  obtain ⟨-, rfl⟩ := failIf_eq_ok.mp hcheck
  exact ⟨_, (lockReclaimed_inversion hlock).1,
    (moveLocked_inversion (fun b => b.principal_debit amount) h).1⟩

theorem consumeInTx_transient {log : Uuid} {e : DbError} (wallet : (db.balance? p).isSome)
    (h : consumeInTx now transactionId p amount (some log) description db = (.error e, db')) :
    e.Transient := by
  rcases bind_eq_error.mp h with h | ⟨⟨b, totals⟩, db₁, hlock, h⟩
  · exact lockReclaimed_transient wallet h
  obtain ⟨-, hb, -⟩ := lockReclaimed_inversion hlock
  rcases bind_eq_error.mp h with h | ⟨existing, _, hread, h⟩
  · cases h
  obtain ⟨-, rfl⟩ := read_eq_ok.mp hread
  cases existing with
  | some x =>
    rcases bind_eq_error.mp h with h | ⟨_, _, -, h⟩
    · exact FailsOnly.failIf ⟨rfl, rfl⟩ h
    · cases h
  | none =>
    rcases bind_eq_error.mp h with h | ⟨_, _, hcheck, h⟩
    · rw [failIf_of_not (by simp)] at h
      cases h
    · obtain ⟨-, rfl⟩ := failIf_eq_ok.mp hcheck
      exact moveLocked_transient (fun b => b.principal_debit amount)
        (Option.isSome_of_eq_some hb) h

theorem consume_eq_ok (h : consume now transactionId p amount usageLogId description db =
    (.ok out, db')) :
    0 ≤ amount ∧ consumeInTx now transactionId p amount usageLogId description db =
      (.ok out, db') := by
  obtain ⟨_, _, hcheck, h⟩ := bind_eq_ok.mp (atomically_eq_ok.mp h)
  obtain ⟨hamount, rfl⟩ := failIf_eq_ok.mp hcheck
  exact ⟨not_lt.mp (not_or.mp hamount).1, h⟩

theorem consume_transient {log : Uuid} {e : DbError} (wallet : (db.balance? p).isSome)
    (nonneg : 0 ≤ amount)
    (h : consume now transactionId p amount (some log) description db = (.error e, db')) :
    e.Transient := by
  obtain ⟨⟨db₁, h⟩, -⟩ := atomically_eq_error.mp h
  rcases bind_eq_error.mp h with h | ⟨_, _, hcheck, h⟩
  · rw [failIf_of_not (by simp [nonneg])] at h
    cases h
  · obtain ⟨-, rfl⟩ := failIf_eq_ok.mp hcheck
    exact consumeInTx_transient wallet h

end ConsumeCases

/-! ## `freeze` -/

def freezeInTx (now : Timestamp) (transactionId : Uuid) (p : Principal) (amount : ℤ)
    (description : Option String) : DbTx (UserBalance × BalanceTransaction) := do
  let (balance, _) ← lockReclaimed now "freeze" p
  failIf (balance.availableBalance < amount)
    (.insufficientBalance amount balance.availableBalance)
  moveLocked transactionId p (·.hold amount) (.notFound "UserBalance" (toString p.userId)) none
    none .freeze (-amount) balance.availableBalance (balance.availableBalance - amount) description

def freeze (now : Timestamp) (transactionId : Uuid) (p : Principal) (amount : ℤ)
    (description : Option String) :
    Database → Except DbError (UserBalance × BalanceTransaction) × Database :=
  atomically do
    failIf (amount ≤ 0) (.other "balance freeze amount must be greater than zero")
    freezeInTx now transactionId p amount description

theorem freezeInTx_inversion {now : Timestamp}
    (h : freezeInTx now transactionId p amount description db = (.ok out, db')) :
    ∃ db₁ : Database, db₁.toTables = db.toTables.reclaim [p] now ∧
      Moved db₁.toTables p (·.hold amount) .freeze none none (-amount) out db'.toTables := by
  obtain ⟨⟨b, totals⟩, db₁, hlock, h⟩ := bind_eq_ok.mp h
  obtain ⟨_, _, hcheck, h⟩ := bind_eq_ok.mp h
  obtain ⟨-, rfl⟩ := failIf_eq_ok.mp hcheck
  exact ⟨_, (lockReclaimed_inversion hlock).1,
    (moveLocked_inversion (fun b => b.principal_hold amount) h).1⟩

/-! ## `unfreeze` -/

/-- The part of `unfreeze_in_tx` after reclamation. -/
def unfreezeLocked (transactionId : Uuid) (p : Principal) (amount : ℤ)
    (description : Option String) (balance : UserBalance) (activeTotals : ActiveTotals) :
    DbTx (UserBalance × BalanceTransaction) := do
  let activeReserved ← okOr (activeTotals p)
    (.panicked "the locked balance must have an active reservation aggregate")
  failIf (balance.frozenBalance < activeReserved) (.other
    s!"active balance reservations for user {p.userId} exceed frozen balance")
  failIf (balance.frozenBalance - activeReserved < amount)
    (.insufficientBalance amount (balance.frozenBalance - activeReserved))
  moveLocked transactionId p (·.unhold amount) (.notFound "UserBalance" (toString p.userId)) none
    none .unfreeze amount balance.availableBalance (balance.availableBalance + amount) description

def unfreezeInTx (now : Timestamp) (transactionId : Uuid) (p : Principal) (amount : ℤ)
    (description : Option String) : DbTx (UserBalance × BalanceTransaction) := do
  let (balance, activeTotals) ← lockReclaimed now "unfreeze" p
  unfreezeLocked transactionId p amount description balance activeTotals

/-- `UserBalance::unfreeze`: the reclamation is committed also when the manually frozen funds
do not cover the amount. -/
def unfreeze (now : Timestamp) (transactionId : Uuid) (p : Principal) (amount : ℤ)
    (description : Option String) (db : Database) :
    Except DbError (UserBalance × BalanceTransaction) × Database :=
  if amount ≤ 0 then (.error (.other "balance unfreeze amount must be greater than zero"), db)
  else
    match unfreezeInTx now transactionId p amount description db with
    | (.ok result, db') => (.ok result, db')
    | (.error e, db') => if e.isInsufficientBalance then (.error e, db') else (.error e, db)

/-- **What `unfreeze_in_tx` leaves behind**: after reclamation either the funds move, or the
body stopped for lack of manually frozen funds before it wrote anything else. -/
theorem unfreezeInTx_cases {now : Timestamp}
    {result : Except DbError (UserBalance × BalanceTransaction)}
    (h : unfreezeInTx now transactionId p amount description db = (result, db')) :
    (∃ e, result = .error e ∧ e.NotInsufficient) ∨
    ∃ db₁ : Database, db₁.toTables = db.toTables.reclaim [p] now ∧
      ((∃ e, result = .error e ∧ db' = db₁) ∨
        ∃ out b, result = .ok out ∧ db₁.balance? p = some b ∧
          amount ≤ b.frozenBalance - db₁.activeTotal p ∧
          Moved db₁.toTables p (·.unhold amount) .unfreeze none none amount out db'.toTables) := by
  rcases hlock : lockReclaimed now "unfreeze" p db with ⟨e | ⟨b, totals⟩, db₁⟩
  · rw [unfreezeInTx, bind_of_error hlock] at h
    cases h
    exact .inl ⟨e, rfl, lockReclaimed_failsOnly _ _ _ hlock⟩
  rw [unfreezeInTx, bind_of_ok hlock] at h
  obtain ⟨htables, hb, htotals⟩ := lockReclaimed_inversion hlock
  dsimp only [unfreezeLocked] at h
  rw [htotals, bind_of_ok (okOr_eq_ok.mpr ⟨rfl, rfl⟩)] at h
  by_cases hcovered : b.frozenBalance < db₁.activeTotal p
  · rw [bind_of_error (failIf_of hcovered)] at h
    cases h
    exact .inl ⟨_, rfl, rfl⟩
  rw [bind_of_ok (failIf_of_not hcovered)] at h
  by_cases hamount : b.frozenBalance - db₁.activeTotal p < amount
  · rw [bind_of_error (failIf_of hamount)] at h
    cases h
    exact .inr ⟨_, htables, .inl ⟨_, rfl, rfl⟩⟩
  rw [bind_of_ok (failIf_of_not hamount)] at h
  cases result with
  | error e => exact .inl ⟨e, rfl, moveLocked_failsOnly _ _ _ (by exact rfl) _ _ _ _ _ _ _ h⟩
  | ok out =>
    exact .inr ⟨db₁, htables, .inr ⟨out, b, rfl, hb, not_lt.mp hamount,
      (moveLocked_inversion (fun b => b.principal_unhold amount) h).1⟩⟩

/-! ## `credit_tips` -/

/-- The check that the locked row, if any, belongs to the tenant. -/
def checkTipTenant (p : Principal) : Option UserBalance → DbTx Unit
  | none => pure ()
  | some balance => failIf (balance.tenantId ≠ p.tenantId) (.other
      s!"balance tip credit tenant changed from {p.tenantId} to {balance.tenantId}")

def creditTips (transactionId : Uuid) (p : Principal) (amount : ℤ) (description : Option String) :
    DbTx (UserBalance × BalanceTransaction) := do
  failIf (amount ≤ 0) (.other "balance tip credit amount must be greater than zero")
  requireMember p
  let balance ← read (·.balance? p)
  checkTipTenant p balance
  exec (·.creditOrInsert p amount)
  let row ← read (·.balance? p)
  let updated ← okOr row (.other "credit_tips upsert failed")
  let transaction ← BalanceTransaction.createInternal transactionId p none none .tipCredit amount
    (updated.availableBalance - amount) updated.availableBalance description
  pure (updated, transaction)

theorem checkTipTenant_state {row : Option UserBalance} {u : Unit}
    (h : checkTipTenant p row db = (.ok u, db')) : db' = db := by
  cases row with
  | none => exact (pure_eq_ok.mp h).2.symm
  | some b => exact (failIf_eq_ok.mp h).2.symm

theorem creditTips_inversion
    (h : creditTips transactionId p amount description db = (.ok out, db')) :
    0 < amount ∧ out.2.Records p .tipCredit none none amount ∧ out.2.id = transactionId ∧
      db'.toTables = (db.toTables.creditOrInsert p amount).insertTransaction out.2 := by
  simp only [creditTips, inv, exec_eq_ok] at h
  obtain ⟨_, hpos, _, _, hmember, _, -, _, _, hcheck, _, db₁, hwrite, _, -, b, -, x, db₂, hcreate,
    rfl, rfl⟩ := h
  obtain ⟨hrecords, hid, -, -, hinsert⟩ := createInternal_inversion hcreate
  rw [checkTipTenant_state hcheck, requireMember_state hmember] at hwrite
  exact ⟨not_le.mp hpos, hrecords, hid, by rw [hinsert, hwrite]⟩

/-! ## Reads that reclaim -/

def findByUserReclaimingExpired (now : Timestamp) (p : Principal) :
    Database → Except DbError (Option UserBalance) × Database :=
  atomically do
    let row ← read (·.balance? p)
    match row with
    | none => pure none
    | some balance => do
      let (balance, _) ← reclaimLocked now balance
      pure (some balance)

def findBreakdownByUser (now : Timestamp) (p : Principal) :
    Database → Except DbError (Option UserBalanceBreakdown) × Database :=
  atomically do
    let row ← read (·.balance? p)
    match row with
    | none => pure none
    | some balance => do
      let (balance, activeTotals) ← reclaimLocked now balance
      let activeReserved ← okOr (activeTotals p)
        (.panicked "the locked balance must have an active reservation aggregate")
      let breakdown ← lift (BalanceReservation.breakdownWithActiveTotal balance activeReserved)
      pure (some breakdown)

end UserBalance

end KeyCompute
