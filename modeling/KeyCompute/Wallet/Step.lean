import KeyCompute.Wallet.Sweep

/-!
# Wallet calls and the steps they are made of

`WalletCall.steps` decomposes a call into wallet steps, so an invariant of the wallets is proved
once, over the steps.  Steps carry the **act** they perform as a label: a statement about who may do
such a thing is about the acts of a call (`WalletCall.Acts`), not about its body.

`settle` and `release` read the reservation once before their transaction; they appear as whole
calls and, with an arbitrary earlier row, as their transactions alone, so that a run may place any
other calls between the two.  `elsewhere` is any write to the other tables.
-/

namespace KeyCompute

open Relational BalanceReservation

/-! ## Steps -/

inductive Act where
  | reserve (req : ReserveRequest)
  | charge (usageLogId : Option Uuid)
  | credit (type : TransactionType) (orderId : Option Uuid)
  | reclaim
  | lock
  | outside
  | other

inductive WalletStep (t : Tables) : Act → Tables → Prop where
  | opened (p : Principal) : WalletStep t .other (t.insertBalanceIfAbsent (.zero p))
  | reclaimed (ps : List Principal) (now : Timestamp) : WalletStep t .reclaim (t.reclaim ps now)
  | reserved {req : ReserveRequest} {t' : Tables}
      (effect : ReserveEffect req t t') : WalletStep t (.reserve req) t'
  | settled {now : Timestamp} {req : SettleRequest} {t' : Tables}
      {out : Option (UserBalance × BalanceTransaction)}
      (effect : SettleEffect now req t t' out) :
      WalletStep t (.charge (some req.usageLogId)) t'
  | released {now : Timestamp} {req : ReleaseRequest} {t' : Tables} {out : Bool}
      (effect : ReleaseEffect now req t t' out) : WalletStep t .other t'
  | adminReleased {clock : Timestamp} {scope : FinancialScope}
      {command : ReleaseReservationCommand} {t' : Tables}
      (effect : AdminReleaseEffect clock scope command t t') :
      WalletStep t .other t'
  | credited {p : Principal} {type : TransactionType} {orderId : Option Uuid} {amount : ℤ}
      {x : BalanceTransaction} (type_eq : type = .recharge ∨ type = .tipCredit)
      (records : x.Records p type orderId none amount) :
      WalletStep t (.credit type orderId) ((t.creditOrInsert p amount).insertTransaction x)
  | consumed {p : Principal} {amount : ℤ} {usageLogId : Option Uuid} {t' : Tables}
      {out : UserBalance × BalanceTransaction}
      (effect : UserBalance.ConsumeEffect p amount usageLogId t t' out) :
      WalletStep t (.charge usageLogId) t'
  | frozen {p : Principal} {amount : ℤ} {t' : Tables} {out : UserBalance × BalanceTransaction}
      (nonneg : 0 ≤ amount) (moved : Moved t p (·.hold amount) .freeze none none (-amount) out t') :
      WalletStep t .lock t'
  | unfrozen {p : Principal} {amount : ℤ} {b : UserBalance} {t' : Tables}
      {out : UserBalance × BalanceTransaction} (wallet : t.balance? p = some b)
      (covered : amount ≤ b.frozenBalance - t.activeTotal p)
      (moved : Moved t p (·.unhold amount) .unfreeze none none amount out t') :
      WalletStep t .lock t'
  | elsewhere {t' : Tables} (balances : t'.userBalances = t.userBalances)
      (reservations : t'.balanceReservations = t.balanceReservations)
      (transactions : t'.balanceTransactions = t.balanceTransactions) : WalletStep t .outside t'

def Act.Posts : Act → BalanceTransaction → Prop
  | .charge usageLogId, x => x.transactionType = .consume ∧ x.usageLogId = usageLogId
  | .credit type orderId, x =>
    (type = .recharge ∨ type = .tipCredit) ∧ x.transactionType = type ∧ x.orderId = orderId
  | .lock, x => x.transactionType = .freeze ∨ x.transactionType = .unfreeze
  | _, _ => False

theorem WalletStep.posts {t t' : Tables} {act : Act} (h : WalletStep t act t') :
    t'.balanceTransactions = t.balanceTransactions ∨
      ∃ x, act.Posts x ∧ t'.balanceTransactions = t.balanceTransactions ++ [x] := by
  have hmoved {p : Principal} {f : UserBalance → UserBalance} {type : TransactionType}
      {orderId usageLogId : Option Uuid} {amount : ℤ} {out : UserBalance × BalanceTransaction}
      (moved : Moved t p f type orderId usageLogId amount out t') :
      t'.balanceTransactions = t.balanceTransactions ++ [out.2] := by
    rw [moved.tables]
    rfl
  cases h with
  | opened | reclaimed => exact .inl rfl
  | reserved effect => cases effect <;> exact .inl rfl
  | settled effect =>
    cases effect with
    | replayed => exact .inl rfl
    | declined => exact .inl rfl
    | reconciled => exact .inl rfl
    | charged found status owner wallet uncharged records =>
      exact .inr ⟨_, ⟨records.type, records.usageLogId⟩, rfl⟩
  | released effect | adminReleased effect => cases effect <;> exact .inl rfl
  | credited type_eq records =>
    exact .inr ⟨_, ⟨type_eq, records.type, records.orderId⟩, rfl⟩
  | consumed effect =>
    cases effect with
    | replayed => exact .inl rfl
    | charged unrecorded moved =>
      exact .inr ⟨_, ⟨moved.records.type, moved.records.usageLogId⟩, hmoved moved⟩
  | frozen nonneg moved => exact .inr ⟨_, .inl moved.records.type, hmoved moved⟩
  | unfrozen wallet covered moved => exact .inr ⟨_, .inr moved.records.type, hmoved moved⟩
  | elsewhere balances reservations transactions => exact .inl transactions

/-- The tables that wallet calls only read are the same. -/
structure Tables.SameElsewhere (t t' : Tables) : Prop where
  reference : t'.reference = t.reference
  adminBalanceOperations : t'.adminBalanceOperations = t.adminBalanceOperations
  paymentOrders : t'.paymentOrders = t.paymentOrders
  paymentNotifications : t'.paymentNotifications = t.paymentNotifications
  nodeTips : t'.nodeTips = t.nodeTips
  nodeTipWithdrawals : t'.nodeTipWithdrawals = t.nodeTipWithdrawals

theorem Tables.SameElsewhere.refl (t : Tables) : t.SameElsewhere t := ⟨rfl, rfl, rfl, rfl, rfl, rfl⟩

theorem Tables.SameElsewhere.trans {t t₁ t' : Tables} (h₁ : t.SameElsewhere t₁)
    (h₂ : t₁.SameElsewhere t') : t.SameElsewhere t' where
  reference := h₂.reference.trans h₁.reference
  adminBalanceOperations := h₂.adminBalanceOperations.trans h₁.adminBalanceOperations
  paymentOrders := h₂.paymentOrders.trans h₁.paymentOrders
  paymentNotifications := h₂.paymentNotifications.trans h₁.paymentNotifications
  nodeTips := h₂.nodeTips.trans h₁.nodeTips
  nodeTipWithdrawals := h₂.nodeTipWithdrawals.trans h₁.nodeTipWithdrawals

theorem Moved.sameElsewhere {t t' : Tables} {p : Principal} {f : UserBalance → UserBalance}
    {type : TransactionType} {orderId usageLogId : Option Uuid} {amount : ℤ}
    {out : UserBalance × BalanceTransaction}
    (h : Moved t p f type orderId usageLogId amount out t') : t.SameElsewhere t' :=
  h.tables ▸ ⟨rfl, rfl, rfl, rfl, rfl, rfl⟩

theorem WalletStep.sameElsewhere {t t' : Tables} {act : Act} (h : WalletStep t act t')
    (hact : act ≠ .outside) : t.SameElsewhere t' := by
  cases h with
  | opened | reclaimed => exact ⟨rfl, rfl, rfl, rfl, rfl, rfl⟩
  | reserved effect => cases effect <;> exact ⟨rfl, rfl, rfl, rfl, rfl, rfl⟩
  | settled effect => cases effect <;> exact ⟨rfl, rfl, rfl, rfl, rfl, rfl⟩
  | released effect | adminReleased effect => cases effect <;> exact ⟨rfl, rfl, rfl, rfl, rfl, rfl⟩
  | credited => exact ⟨rfl, rfl, rfl, rfl, rfl, rfl⟩
  | consumed effect =>
    cases effect with
    | replayed => exact ⟨rfl, rfl, rfl, rfl, rfl, rfl⟩
    | charged unrecorded moved => exact moved.sameElsewhere
  | frozen nonneg moved | unfrozen wallet covered moved => exact moved.sameElsewhere
  | elsewhere => exact absurd rfl hact

/-- A finite sequence of wallet steps through valid databases, with acts among `acts`. -/
def WalletSteps (acts : Act → Prop) : Database → Database → Prop :=
  Relation.ReflTransGen fun db db' => ∃ act, acts act ∧ WalletStep db.toTables act db'.toTables

namespace WalletSteps

variable {acts acts' : Act → Prop} {db db₁ db' : Database}

theorem refl (db : Database) : WalletSteps acts db db := Relation.ReflTransGen.refl

theorem single {act : Act} (h : WalletStep db.toTables act db'.toTables) (hact : acts act) :
    WalletSteps acts db db' :=
  Relation.ReflTransGen.single ⟨act, hact, h⟩

theorem trans (h₁ : WalletSteps acts db db₁) (h₂ : WalletSteps acts db₁ db') :
    WalletSteps acts db db' :=
  Relation.ReflTransGen.trans h₁ h₂

theorem of_reclaim {p : Principal} {now : Timestamp} (hreclaim : acts .reclaim)
    (h : db₁.toTables = db.toTables.reclaim [p] now) : WalletSteps acts db db₁ :=
  single (h ▸ .reclaimed [p] now) hreclaim

/-- **The invariant rule**: what every step keeps, a sequence of steps keeps. -/
theorem invariant {I : Database → Prop}
    (hstep : ∀ {db db' : Database} {act : Act}, acts act → WalletStep db.toTables act db'.toTables →
      I db → I db')
    (h : WalletSteps acts db db') (hI : I db) : I db' := by
  induction h with
  | refl => exact hI
  | tail _ step ih => grind

theorem sameElsewhere (h : WalletSteps acts db db') (hacts : ¬ acts .outside) :
    db.toTables.SameElsewhere db'.toTables := by
  refine h.invariant (I := fun db₁ : Database => db.toTables.SameElsewhere db₁.toTables)
    (fun hact step hI => hI.trans (step.sameElsewhere ?_)) (.refl _)
  rintro rfl
  exact hacts hact

theorem filter_transactions {select : BalanceTransaction → Bool} (h : WalletSteps acts db db')
    (hselect : ∀ act x, acts act → act.Posts x → select x = false) :
    db'.balanceTransactions.filter select = db.balanceTransactions.filter select := by
  refine h.invariant (I := fun db₁ : Database =>
    db₁.balanceTransactions.filter select = db.balanceTransactions.filter select)
    (fun hact step hI => ?_) rfl
  rcases step.posts with hsame | ⟨x, hposts, hrow⟩
  · rwa [hsame]
  · grind

end WalletSteps

/-! ## Calls -/

/-- A call on the wallet tables, with its arguments, clock readings and generated keys. -/
inductive WalletCall where
  | getOrCreate (p : Principal)
  | recharge (transactionId : Uuid) (p : Principal) (amount : ℤ) (orderId : Option Uuid)
      (description : Option String)
  | consume (now : Timestamp) (transactionId : Uuid) (p : Principal) (amount : ℤ)
      (usageLogId : Option Uuid) (description : Option String)
  | freeze (now : Timestamp) (transactionId : Uuid) (p : Principal) (amount : ℤ)
      (description : Option String)
  | unfreeze (now : Timestamp) (transactionId : Uuid) (p : Principal) (amount : ℤ)
      (description : Option String)
  | creditTips (transactionId : Uuid) (p : Principal) (amount : ℤ) (description : Option String)
  | reserve (utcNow now : Timestamp) (req : ReserveRequest)
  | settle (now : Timestamp) (transactionId : Uuid) (req : SettleRequest)
  | settleTransaction (now : Timestamp) (transactionId : Uuid) (snapshot : BalanceReservation)
      (req : SettleRequest)
  | release (now : Timestamp) (req : ReleaseRequest)
  | releaseTransaction (now : Timestamp) (snapshot : BalanceReservation) (req : ReleaseRequest)
  | adminRelease (utcNow clock : Timestamp) (scope : FinancialScope) (authority : Authority)
      (command : ReleaseReservationCommand)
  | reclaimExpired (now : Timestamp) (batchSize : Nat) (locked : List Principal)
  | findByUserReclaimingExpired (now : Timestamp) (p : Principal)
  | findBreakdownByUser (now : Timestamp) (p : Principal)
  | findByUsersReclaimingExpired (now : Timestamp) (tenantId : Uuid) (userIds : List Uuid)
  | elsewhere (tables : Tables)

/-- The other tables become those of `tables`. -/
def Tables.replaceElsewhere (tables t : Tables) : Tables :=
  { tables with
    userBalances := t.userBalances
    balanceReservations := t.balanceReservations
    balanceTransactions := t.balanceTransactions }

namespace WalletCall

def step : WalletCall → Database → Database
  | getOrCreate p, db => (UserBalance.getOrCreate p db).2
  | recharge id p amount orderId description, db =>
    (UserBalance.recharge id p amount orderId description db).2
  | consume now id p amount usageLogId description, db =>
    (UserBalance.consume now id p amount usageLogId description db).2
  | freeze now id p amount description, db => (UserBalance.freeze now id p amount description db).2
  | unfreeze now id p amount description, db =>
    (UserBalance.unfreeze now id p amount description db).2
  | creditTips id p amount description, db =>
    (atomically (UserBalance.creditTips id p amount description) db).2
  | reserve utcNow now req, db => (BalanceReservation.reserve utcNow now req db).2
  | settle now id req, db => (BalanceReservation.settle now id req db).2
  | settleTransaction now id snapshot req, db =>
    (atomically (BalanceReservation.settleInTx now id snapshot req) db).2
  | release now req, db => (BalanceReservation.release now req db).2
  | releaseTransaction now snapshot req, db =>
    (atomically (BalanceReservation.releaseInTx now snapshot req) db).2
  | adminRelease utcNow clock scope authority command, db =>
    (BalanceReservation.adminRelease utcNow clock scope authority command db).2
  | reclaimExpired now batchSize locked, db =>
    (BalanceReservation.reclaimExpired now batchSize locked db).2
  | findByUserReclaimingExpired now p, db =>
    (UserBalance.findByUserReclaimingExpired now p db).2
  | findBreakdownByUser now p, db => (UserBalance.findBreakdownByUser now p db).2
  | findByUsersReclaimingExpired now tenantId userIds, db =>
    (UserBalance.findByUsersReclaimingExpired now tenantId userIds db).2
  | elsewhere tables, db => (atomically (exec tables.replaceElsewhere) db).2

def Acts : WalletCall → Act → Prop
  | recharge _ _ _ orderId _, act => act = .credit .recharge orderId
  | creditTips .., act => act = .credit .tipCredit none
  | consume _ _ _ _ usageLogId _, act => act = .charge usageLogId ∨ act = .reclaim
  | freeze .., act => act = .reclaim ∨ act = .lock
  | unfreeze .., act => act = .reclaim ∨ act = .lock
  | reserve _ _ req, act => act = .reserve req ∨ act = .reclaim
  | settle _ _ req, act => act = .charge (some req.usageLogId)
  | settleTransaction _ _ _ req, act => act = .charge (some req.usageLogId)
  | reclaimExpired .., act => act = .reclaim
  | findByUserReclaimingExpired .., act => act = .reclaim
  | findBreakdownByUser .., act => act = .reclaim
  | findByUsersReclaimingExpired .., act => act = .reclaim
  | elsewhere _, act => act = .outside
  | _, act => act = .other

end WalletCall

/-! ## A call is a sequence of steps -/

section Steps

variable {acts : Act → Prop} {db db' : Database}

theorem WalletSteps.atomically {α : Type} {body : DbTx α} {db : Database}
    (h : ∀ a db', body db = (.ok a, db') → WalletSteps acts db db') :
    WalletSteps acts db (Relational.atomically body db).2 :=
  atomically_rel (WalletSteps.refl db) h

theorem getOrCreate_steps (p : Principal) (db : Database) :
    WalletSteps (· = .other) db (UserBalance.getOrCreate p db).2 :=
  .atomically fun _ _ h =>
    .single (UserBalance.getOrCreateInTx_inversion h ▸ .opened p) rfl

variable {out : UserBalance × BalanceTransaction} {description : Option String} {p : Principal}
  {now : Timestamp} {amount : ℤ} {id : Uuid}

theorem rechargeInTx_steps {orderId : Option Uuid}
    (h : UserBalance.rechargeInTx id p amount orderId description db = (.ok out, db')) :
    WalletSteps (· = .credit .recharge orderId) db db' := by
  obtain ⟨-, hrecords, -, htables⟩ := UserBalance.rechargeInTx_inversion h
  exact .single (htables ▸ .credited (.inl rfl) hrecords) rfl

theorem creditTips_steps (h : UserBalance.creditTips id p amount description db = (.ok out, db')) :
    WalletSteps (· = .credit .tipCredit none) db db' := by
  obtain ⟨-, hrecords, -, htables⟩ := UserBalance.creditTips_inversion h
  exact .single (htables ▸ .credited (.inr rfl) hrecords) rfl

theorem consumeInTx_steps {usageLogId : Option Uuid}
    (h : UserBalance.consumeInTx now id p amount usageLogId description db = (.ok out, db')) :
    WalletSteps (fun act => act = .charge usageLogId ∨ act = .reclaim) db db' := by
  obtain ⟨db₁, hreclaim, heffect⟩ := UserBalance.consumeInTx_cases h
  exact (WalletSteps.of_reclaim (.inr rfl) hreclaim).trans (.single (.consumed heffect) (.inl rfl))

theorem freezeInTx_steps (hpos : 0 < amount)
    (h : UserBalance.freezeInTx now id p amount description db = (.ok out, db')) :
    WalletSteps (fun act => act = .reclaim ∨ act = .lock) db db' := by
  obtain ⟨db₁, hreclaim, hmoved⟩ := UserBalance.freezeInTx_inversion h
  have hfirst : WalletSteps (fun act => act = .reclaim ∨ act = .lock) db db₁ :=
    .of_reclaim (.inl rfl) hreclaim
  exact hfirst.trans (.single (.frozen hpos.le hmoved) (.inr rfl))

theorem unfreezeInTx_steps {result : Except DbError (UserBalance × BalanceTransaction)}
    (h : UserBalance.unfreezeInTx now id p amount description db = (result, db')) :
    (∃ e, result = .error e ∧ e.NotInsufficient) ∨
      WalletSteps (fun act => act = .reclaim ∨ act = .lock) db db' := by
  rcases UserBalance.unfreezeInTx_cases h with herror | ⟨db₁, hreclaim, hcase⟩
  · exact .inl herror
  · have hfirst : WalletSteps (fun act => act = .reclaim ∨ act = .lock) db db₁ :=
      .of_reclaim (.inl rfl) hreclaim
    rcases hcase with ⟨-, -, rfl⟩ | ⟨out, b, -, hb, hcovered, hmoved⟩
    · exact .inr hfirst
    · exact .inr (hfirst.trans (.single (.unfrozen hb hcovered hmoved) (.inr rfl)))

theorem unfreeze_steps (now : Timestamp) (id : Uuid) (p : Principal) (amount : ℤ)
    (description : Option String) (db : Database) :
    WalletSteps (fun act => act = .reclaim ∨ act = .lock) db
      (UserBalance.unfreeze now id p amount description db).2 := by
  unfold UserBalance.unfreeze
  split
  · exact .refl db
  · rcases hrun : UserBalance.unfreezeInTx now id p amount description db with ⟨e | out, db'⟩
    · dsimp only
      split
      · grind [unfreezeInTx_steps, DbError.NotInsufficient]
      · exact .refl db
    · grind [unfreezeInTx_steps]

theorem reserve_steps (utcNow now : Timestamp) (req : ReserveRequest) (db : Database) :
    WalletSteps (fun act => act = .reserve req ∨ act = .reclaim) db
      (reserve utcNow now req db).2 := by
  rcases reserve_cases utcNow now req db with h | ⟨db₁, hreclaim, heffect⟩
  · rw [h]
    exact .refl db
  · exact (WalletSteps.of_reclaim (.inr rfl) hreclaim).trans
      (.single (.reserved heffect) (.inl rfl))

theorem settle_steps (now : Timestamp) (id : Uuid) (req : SettleRequest) (db : Database) :
    WalletSteps (· = .charge (some req.usageLogId)) db
      (settle now id req db).2 := by
  rcases settle_cases (Prod.mk.eta (p := settle now id req
    db)).symm with h | ⟨out, -, heffect⟩
  · rw [h]
    exact .refl db
  · exact .single (.settled heffect) rfl

theorem release_steps (now : Timestamp) (req : ReleaseRequest) (db : Database) :
    WalletSteps (· = .other) db (release now req db).2 := by
  rcases release_cases (Prod.mk.eta (p := release now req
    db)).symm with h | ⟨out, -, heffect⟩
  · rw [h]
    exact .refl db
  · exact .single (.released heffect) rfl

theorem reclaimBatch_steps {balances : List UserBalance} {isolate : Bool}
    {st : ReclaimedBalanceState} (locked : Locked db balances)
    (h : reclaimExpiredForLockedBalancesInner now balances isolate db = (.ok st, db')) :
    WalletSteps (· = .reclaim) db db' :=
  .single ((reclaimInner_inversion locked h).1.tables ▸ .reclaimed _ now) rfl

theorem reclaimExpired_steps (now : Timestamp) (batchSize : Nat) (locked : List Principal)
    (db : Database) :
    WalletSteps (· = .reclaim) db (reclaimExpired now batchSize locked db).2 := by
  unfold reclaimExpired
  split
  · exact .refl db
  · split
    · exact .refl db
    · refine .atomically fun n db' h => ?_
      simp only [Tx.inv] at h
      obtain ⟨_, rfl, st, _, hrun, -, rfl⟩ := h
      exact reclaimBatch_steps Locked.sweepBatch hrun

theorem findByUsers_steps (now : Timestamp) (tenantId : Uuid) (userIds : List Uuid)
    (db : Database) : WalletSteps (· = .reclaim) db
      (UserBalance.findByUsersReclaimingExpired now tenantId userIds db).2 := by
  unfold UserBalance.findByUsersReclaimingExpired
  split
  · exact .refl db
  · refine .atomically fun n db' h => ?_
    simp only [Tx.inv] at h
    obtain ⟨_, rfl, st, _, hrun, -, rfl⟩ := h
    exact reclaimBatch_steps Locked.of_orderByUser hrun

theorem reclaimLocked_steps {b : UserBalance} {out : UserBalance × ActiveTotals}
    (hb : db.balance? p = some b) (h : reclaimLocked now b db = (.ok out, db')) :
    WalletSteps (· = .reclaim) db db' := by
  have hp : b.principal = p := (Database.balance?_eq_some.mp hb).2
  subst hp
  exact .of_reclaim rfl (reclaimLocked_inversion hb h).1

theorem findByUser_steps (now : Timestamp) (p : Principal) (db : Database) :
    WalletSteps (· = .reclaim) db (UserBalance.findByUserReclaimingExpired now p db).2 := by
  refine .atomically fun out db' h => ?_
  obtain ⟨row, _, hread, h⟩ := Tx.bind_eq_ok.mp h
  obtain ⟨hrow, rfl⟩ := Tx.read_eq_ok.mp hread
  cases row with
  | none =>
    cases h
    exact .refl _
  | some b =>
    obtain ⟨_, _, hreclaim, h⟩ := Tx.bind_eq_ok.mp h
    cases h
    exact reclaimLocked_steps hrow hreclaim

theorem findBreakdown_steps (now : Timestamp) (p : Principal) (db : Database) :
    WalletSteps (· = .reclaim) db (UserBalance.findBreakdownByUser now p db).2 := by
  refine .atomically fun out db' h => ?_
  obtain ⟨row, _, hread, h⟩ := Tx.bind_eq_ok.mp h
  obtain ⟨hrow, rfl⟩ := Tx.read_eq_ok.mp hread
  cases row with
  | none =>
    cases h
    exact .refl _
  | some b =>
    grind [Tx.bind_eq_ok, Tx.okOr_eq_ok, Tx.lift_eq_ok, Tx.pure_eq_ok, reclaimLocked_steps]

/-- **Every call is a sequence of wallet steps**, with the acts it is allowed. -/
theorem WalletCall.steps (c : WalletCall) (db : Database) : WalletSteps c.Acts db (c.step db) := by
  cases c with
  | getOrCreate p => exact getOrCreate_steps p db
  | recharge id p amount orderId description =>
    exact .atomically fun _ _ h => rechargeInTx_steps h
  | consume now id p amount usageLogId description =>
    refine .atomically fun out db' h => ?_
    exact consumeInTx_steps (UserBalance.consume_eq_ok (atomically_eq_ok.mpr h)).2
  | freeze now id p amount description =>
    refine .atomically fun out db' h => ?_
    obtain ⟨_, _, hcheck, h⟩ := Tx.bind_eq_ok.mp h
    obtain ⟨hpos, rfl⟩ := Tx.failIf_eq_ok.mp hcheck
    exact freezeInTx_steps (not_le.mp hpos) h
  | unfreeze now id p amount description => exact unfreeze_steps now id p amount description db
  | creditTips id p amount description => exact .atomically fun _ _ h => creditTips_steps h
  | reserve utcNow now req => exact reserve_steps utcNow now req db
  | settle now id req => exact settle_steps now id req db
  | settleTransaction now id snapshot req =>
    exact .atomically fun _ _ h => .single (.settled (settleInTx_cases h)) rfl
  | release now req => exact release_steps now req db
  | releaseTransaction now snapshot req =>
    exact .atomically fun _ _ h =>
      .single (.released (releaseInTx_cases h)) rfl
  | adminRelease utcNow clock scope authority command =>
    exact .single (.adminReleased
      (adminRelease_cases utcNow clock scope authority command db)) rfl
  | reclaimExpired now batchSize locked => exact reclaimExpired_steps now batchSize locked db
  | findByUserReclaimingExpired now p => exact findByUser_steps now p db
  | findBreakdownByUser now p => exact findBreakdown_steps now p db
  | findByUsersReclaimingExpired now tenantId userIds =>
    exact findByUsers_steps now tenantId userIds db
  | elsewhere tables =>
    exact .atomically fun _ _ h => by
      rw [exec_eq_ok] at h
      exact .single (.elsewhere (by rw [h]; rfl) (by rw [h]; rfl) (by rw [h]; rfl)) rfl

end Steps

end KeyCompute
