import KeyCompute.Wallet.Ledger

/-!
# Charging a usage log

`deduct_balance_if_configured` waits for its turn, settles the reservation of the request if the
presented owner token still owns it, and otherwise consumes from the wallet.  Durable retries run
it any number of times for the same log.

A run makes three database visits, with anything in between, so it is an automaton (`Phase`,
`Deduction.advance`) whose moves in a row are the function (`deductBalanceIfConfigured_eq`).

`Fleet` is the database with all runs for one usage log; its events may also be any wallet call
that does not charge this log.  `Fleet.consumed` is a ghost: what the runs added to
`total_consumed`.
-/

namespace KeyCompute

open Relational Accounting BalanceReservation UserBalance Tables

/-! ## The charges of a usage log -/

section Charges

variable {t t' : Tables} {log : Uuid} {x : BalanceTransaction}

/-- The `consume` transactions of a usage log. -/
def Tables.charges (t : Tables) (log : Uuid) : List BalanceTransaction :=
  t.balanceTransactions.filter fun x => decide (x.consumeUsageLog = some log)

theorem Tables.consumption?_eq_head? : t.consumption? log = (t.charges log).head? :=
  List.head?_filter.symm

theorem Tables.charges_eq_nil : t.charges log = [] ↔ t.consumption? log = none := by
  rw [consumption?_eq_head?, List.head?_eq_none_iff]

theorem Tables.charges_ne_nil (h : t.consumption? log = some x) : t.charges log ≠ [] := by
  intro hnil
  rw [charges_eq_nil.mp hnil] at h
  cases h

theorem Tables.charges_insertTransaction :
    (t.insertTransaction x).charges log =
      t.charges log ++ if x.consumeUsageLog = some log then [x] else [] := by
  by_cases h : x.consumeUsageLog = some log <;> simp [charges, h]

theorem Tables.charges_congr (h : t'.balanceTransactions = t.balanceTransactions) :
    t'.charges log = t.charges log := by
  rw [charges, charges, h]

theorem BalanceTransaction.Records.consumeUsageLog {p : Principal} {type : TransactionType}
    {orderId usageLogId : Option Uuid} {amount : ℤ}
    (h : x.Records p type orderId usageLogId amount) :
    x.consumeUsageLog = if type = .consume then usageLogId else none := by
  rw [BalanceTransaction.consumeUsageLog, h.type, h.usageLogId]

theorem Tables.charges_of_fresh {p : Principal} {orderId : Option Uuid} {amount : ℤ}
    (fresh : t.consumption? log = none) (h : x.Records p .consume orderId (some log) amount)
    (tables : t'.balanceTransactions = t.balanceTransactions ++ [x]) : t'.charges log = [x] := by
  rw [charges_congr (t := t.insertTransaction x) tables, charges_insertTransaction,
    charges_eq_nil.mpr fresh, h.consumeUsageLog]
  simp

theorem WalletSteps.charges_eq {acts : Act → Prop} {db db' : Database}
    (h : WalletSteps acts db db') (hacts : ¬ acts (.charge (some log))) :
    db'.charges log = db.charges log := by
  refine h.filter_transactions fun act x hact hposts => ?_
  rw [decide_eq_false_iff_not, BalanceTransaction.consumeUsageLog]
  intro hlog
  cases act with
  | charge usageLogId =>
    rw [if_pos hposts.1, hposts.2] at hlog
    exact hacts (hlog ▸ hact)
  | credit type orderId =>
    rw [hposts.2.1] at hlog
    rcases hposts.1 with htype | htype <;> simp [htype] at hlog
  | lock => rcases hposts with htype | htype <;> simp [htype] at hlog
  | _ => exact hposts

end Charges

namespace Billing

/-! ## The balance service -/

/-- `KeyComputeError`, as far as the balance service reports it.  An error that quotes a
database error keeps that error; its text is `context: cause`. -/
inductive BillingError where
  | serviceUnavailable (message : String)
  | databaseError (context : String) (cause : DbError)
  | validationError (message : String) (cause : Option DbError)
  deriving DecidableEq

namespace BalanceService

/-- `BalanceService::settlement_turn`; `granted` is the answer of the local queue. -/
def settlementTurn (granted : Bool) : Except BillingError Unit :=
  if granted then .ok ()
  else .error (.serviceUnavailable "Balance settlement capacity exhausted; durable retry required")

/-- The error map of `BalanceService::settle_request_reservation`. -/
def settleError (e : DbError) : BillingError :=
  .databaseError "Failed to settle request balance reservation" e

def settleRequestReservation (now : Timestamp) (transactionId : Uuid) (req : SettleRequest)
    (db : Database) : Except BillingError (Option (UserBalance × BalanceTransaction)) × Database :=
  match settle now transactionId req db with
  | (.ok out, db') => (.ok out, db')
  | (.error e, db') => (.error (settleError e), db')

/-- The error map of `BalanceService::consume`. -/
def consumeError (userId : Uuid) (e : DbError) : BillingError :=
  if e.isInsufficientBalance then
    .validationError s!"Insufficient balance for user {userId}" (some e)
  else if e.isNotFound then .validationError s!"User balance not found for user {userId}" none
  else .databaseError "Failed to consume balance" e

def consume (now : Timestamp) (transactionId : Uuid) (p : Principal) (amount : ℤ)
    (usageLogId : Option Uuid) (description : Option String) (db : Database) :
    Except BillingError (UserBalance × BalanceTransaction) × Database :=
  if amount < 0 ∨ (amount = 0 ∧ usageLogId = none) then
    (.error (.validationError
      ("Balance consumption amount must be greater than zero unless it records a " ++
        "zero-cost usage ledger entry")
      none), db)
  else
    match UserBalance.consume now transactionId p amount usageLogId description db with
    | (.ok out, db') => (.ok out, db')
    | (.error e, db') => (.error (consumeError p.userId e), db')

end BalanceService

/-! ## One run -/

structure Deduction where
  principal : Principal
  billingRequestId : Uuid
  amount : ℤ
  usageLogId : Uuid
  modelName : String

/-- What a visit gets from outside: the database clock, the key generated for a journal row,
and the answer of the settlement queue. -/
structure Tick where
  now : Timestamp
  transactionId : Uuid
  turnGranted : Bool

inductive Phase where
  | queued
  | locating
  | settling (snapshot : BalanceReservation)
  | consuming
  | returned (result : Except BillingError Unit)
  /-- the run ended without a result of its own: its task or its connection was lost -/
  | abandoned

namespace Phase

def finished : Phase → Bool
  | returned _ => true
  | abandoned => true
  | _ => false

def succeeded : Phase → Bool
  | returned (.ok ()) => true
  | _ => false

end Phase

/-- The last `match` of `deduct_balance_if_configured`: a permanent business outcome is
acknowledged, the debt stays in the usage ledger. -/
def acknowledge {α : Type} : Except BillingError α → Except BillingError Unit
  | .ok _ => .ok ()
  | .error (.validationError _ _) => .ok ()
  | .error e => .error e

namespace Deduction

variable (d : Deduction)

def description : String := s!"API调用: {d.modelName}"

def settleRequest (token : Option Uuid) : SettleRequest where
  tenantId := d.principal.tenantId
  userId := d.principal.userId
  requestId := d.billingRequestId
  expectedOwnerToken := token
  amount := d.amount
  usageLogId := d.usageLogId
  description := some d.description

/-- `BillingService::deduct_balance_if_configured`, uninterrupted. -/
def deductBalanceIfConfigured (configured : Bool) (token : Option Uuid)
    (queue settle consume : Tick)
    (db : Database) : Except BillingError Unit × Database :=
  if configured then
    match BalanceService.settlementTurn queue.turnGranted with
    | .error e => (.error e, db)
    | .ok () =>
      match BalanceService.settleRequestReservation settle.now settle.transactionId
        (d.settleRequest token) db with
      | (.error e, db') => (.error e, db')
      | (.ok (some _), db') => (.ok (), db')
      | (.ok none, db') =>
        let (result, db'') := BalanceService.consume consume.now consume.transactionId
          d.principal d.amount (some d.usageLogId) (some d.description) db'
        (acknowledge result, db'')
  else (.ok (), db)

def enter (granted : Bool) : Phase :=
  match BalanceService.settlementTurn granted with
  | .error e => .returned (.error e)
  | .ok () => .locating

def locate (token : Option Uuid) (t : Tables) : Phase :=
  match settleLocate (d.settleRequest token) t with
  | .error e => .returned (.error (BalanceService.settleError e))
  | .ok none => .consuming
  | .ok (some snapshot) => .settling snapshot

/-- The phase after the transaction of `settle`. -/
def afterSettle : Except DbError (Option (UserBalance × BalanceTransaction)) → Phase
  | .error e => .returned (.error (BalanceService.settleError e))
  | .ok none => .consuming
  | .ok (some _) => .returned (.ok ())

def advance (token : Option Uuid) (tick : Tick) : Phase × Database → Phase × Database
  | (.queued, db) => (enter tick.turnGranted, db)
  | (.locating, db) => (d.locate token db.toTables, db)
  | (.settling snapshot, db) =>
    let (result, db') := atomically (settleInTx tick.now tick.transactionId
      snapshot (d.settleRequest token)) db
    (afterSettle result, db')
  | (.consuming, db) =>
    let (result, db') := BalanceService.consume tick.now tick.transactionId d.principal d.amount
      (some d.usageLogId) (some d.description) db
    (.returned (acknowledge result), db')
  | (.returned result, db) => (.returned result, db)
  | (.abandoned, db) => (.abandoned, db)

def begin (configured : Bool) : Phase := if configured then .queued else .returned (.ok ())

@[simp] theorem advance_queued (token : Option Uuid) (tick : Tick) (db : Database) :
    d.advance token tick (.queued, db) = (enter tick.turnGranted, db) := rfl

@[simp] theorem advance_locating (token : Option Uuid) (tick : Tick) (db : Database) :
    d.advance token tick (.locating, db) = (d.locate token db.toTables, db) := rfl

@[simp] theorem advance_returned (token : Option Uuid) (tick : Tick)
    (result : Except BillingError Unit)
    (db : Database) : d.advance token tick (.returned result, db) = (.returned result, db) := rfl

/-- The next visit of a run whose visits in the three waiting phases meet the given ticks. -/
def visit (token : Option Uuid) (queue settle consume : Tick) (s : Phase × Database) :
    Phase × Database :=
  match s.1 with
  | .settling _ => d.advance token settle s
  | .consuming => d.advance token consume s
  | _ => d.advance token queue s

/-- **The visits made in a row are the function.** -/
theorem deductBalanceIfConfigured_eq (configured : Bool) (token : Option Uuid)
    (queue settle consume : Tick) (db : Database) :
    (d.visit token queue settle consume)^[4] (begin configured, db) =
    (.returned (d.deductBalanceIfConfigured configured token queue settle consume db).1,
      (d.deductBalanceIfConfigured configured token queue settle consume db).2) := by
  change d.visit token queue settle consume (d.visit token queue settle consume
    (d.visit token queue settle consume (d.visit token queue settle consume _))) = _
  cases configured with
  | false => rfl
  | true =>
    rw [deductBalanceIfConfigured, begin, if_pos rfl, if_pos rfl]
    simp only [visit, advance_queued, enter]
    cases BalanceService.settlementTurn queue.turnGranted with
    | error e => rfl
    | ok _ =>
      simp only [advance_locating, Deduction.locate, BalanceService.settleRequestReservation,
        BalanceReservation.settle]
      -- the locator read decides whether there is a transaction of `settle`
      cases BalanceReservation.settleLocate (d.settleRequest token) db.toTables with
      | error e => rfl
      | ok found =>
        cases found with
        | none => simp only [advance]
        | some snapshot =>
          simp only [advance]
          rcases atomically (BalanceReservation.settleInTx settle.now settle.transactionId
            snapshot (d.settleRequest token)) db with ⟨_ | ⟨_ | _⟩, db'⟩ <;>
            simp only [afterSettle]

end Deduction

/-! ## All runs for one usage log -/

/-- A run, with the owner token it presents.  `payable` records whether, when the run
started, the balance service was configured and the wallet existed. -/
structure Run where
  token : Option Uuid
  payable : Bool
  phase : Phase

/-- The phase after a visit: a run that is cut off is abandoned. -/
def phaseAfter : Ending → Phase → Phase
  | .answered, next => next
  | .lost _, _ => .abandoned

inductive Event where
  | start (configured : Bool) (token : Option Uuid)
  | visit (i : Nat) (tick : Tick) (ending : Ending)
  | other (call : WalletCall)

/-- Other calls do not charge this usage log themselves. -/
def Event.Allowed (d : Deduction) : Event → Prop
  | other call => ¬ call.Acts (.charge (some d.usageLogId))
  | _ => True

structure Fleet where
  db : Database
  runs : List Run
  consumed : ℤ

namespace Fleet

def initial (db : Database) : Fleet := ⟨db, [], 0⟩

def visitRun (d : Deduction) (i : Nat) (run : Run) (tick : Tick) (ending : Ending) (s : Fleet) :
    Fleet :=
  let next := d.advance run.token tick (run.phase, s.db)
  let db := ending.state s.db next.2
  { db
    runs := s.runs.set i { run with phase := phaseAfter ending next.1 }
    consumed := s.consumed +
      ((db.wallet d.principal).totalConsumed - (s.db.wallet d.principal).totalConsumed) }

theorem visitRun_db (d : Deduction) (i : Nat) (run : Run) (tick : Tick) (ending : Ending)
    (s : Fleet) : (s.visitRun d i run tick ending).db =
      ending.state s.db (d.advance run.token tick (run.phase, s.db)).2 := rfl

def step (d : Deduction) : Event → Fleet → Fleet
  | .start configured token, s =>
    { s with
      runs := s.runs ++ [{ token, payable := configured && (s.db.balance? d.principal).isSome,
                           phase := Deduction.begin configured }] }
  | .visit i tick ending, s =>
    match s.runs[i]? with
    | some run => if run.phase.finished then s else s.visitRun d i run tick ending
    | none => s
  | .other call, s => { s with db := call.step s.db }

theorem step_visit_cases (d : Deduction) (i : Nat) (tick : Tick) (ending : Ending) (s : Fleet) :
    step d (.visit i tick ending) s = s ∨
      ∃ run, s.runs[i]? = some run ∧ run.phase.finished = false ∧
        step d (.visit i tick ending) s = s.visitRun d i run tick ending := by
  rw [step]
  cases hrun : s.runs[i]? with
  | none => exact .inl rfl
  | some run => grind

end Fleet

/-! ## What a visit does to the charge -/

/-- **A visit leaves the charge of the log alone, or makes it for the first time.** -/
inductive Charge (d : Deduction) (t t' : Tables) : Prop where
  | kept (charges : t'.charges d.usageLogId = t.charges d.usageLogId)
      (consumed : (t'.wallet d.principal).totalConsumed = (t.wallet d.principal).totalConsumed)
  | made {x : BalanceTransaction} (fresh : t.charges d.usageLogId = [])
      (recorded : t'.charges d.usageLogId = [x])
      (records : x.Records d.principal .consume none (some d.usageLogId) (-d.amount))
      (consumed : (t'.wallet d.principal).totalConsumed =
        (t.wallet d.principal).totalConsumed + d.amount)

namespace Charge

variable {d : Deduction} {t t' : Tables}

theorem refl (d : Deduction) (t : Tables) : Charge d t t := .kept rfl rfl

theorem after_reclaim {p : Principal} {now : Timestamp} (h : Charge d (t.reclaim [p] now) t') :
    Charge d t t' := by
  have hconsumed : ((t.reclaim [p] now).wallet d.principal).totalConsumed =
      (t.wallet d.principal).totalConsumed := by
    rw [wallet, wallet, balance?_reclaim]
    cases t.balance? d.principal with
    | none => rfl
    | some b =>
      simp only [Option.map_some, Option.getD_some]
      split <;> rfl
  cases h with
  | kept charges consumed => exact .kept charges (consumed.trans hconsumed)
  | made fresh recorded records consumed =>
    exact .made fresh recorded records (hconsumed ▸ consumed)

theorem of_settle {now : Timestamp} {token : Option Uuid}
    {out : Option (UserBalance × BalanceTransaction)}
    (row : ∀ r, t.reservation? d.billingRequestId = some r → r.principal = d.principal)
    (h : SettleEffect now (d.settleRequest token) t t' out) :
    Charge d t t' ∧ (out.isSome → t'.charges d.usageLogId ≠ []) := by
  cases h with
  | replayed found status charged same => exact ⟨.refl d t, fun _ => charges_ne_nil charged⟩
  | declined => exact ⟨.refl d t, nofun⟩
  | @reconciled r b x found status owner wallet charged same =>
    have hprincipal : r.principal = d.principal := row r found
    have hwallet := wallet_updateBalance (p := d.principal)
      (fun b => b.principal_unhold r.amount) (Option.isSome_of_eq_some wallet)
    rw [if_pos hprincipal.symm] at hwallet
    have hconsumed := congrArg totalConsumed hwallet
    exact ⟨.kept rfl hconsumed, fun _ => charges_ne_nil charged⟩
  | @charged r b x found status owner wallet uncharged records =>
    have hprincipal : r.principal = d.principal := row r found
    have hwallet := wallet_updateBalance (p := d.principal)
      (fun b => b.principal_settle d.amount r.amount) (Option.isSome_of_eq_some wallet)
    rw [if_pos hprincipal.symm] at hwallet
    have hcharges : ((((t.updateBalance r.principal (·.settle d.amount r.amount)).insertTransaction
        x).updateReservation d.billingRequestId
          (markSettled now d.usageLogId)).charges d.usageLogId) = [x] :=
      charges_of_fresh uncharged records rfl
    refine ⟨.made (charges_eq_nil.mpr uncharged) hcharges (hprincipal ▸ records)
      (congrArg totalConsumed hwallet), fun _ hnil => ?_⟩
    cases hcharges.symm.trans hnil

theorem of_consume {out : UserBalance × BalanceTransaction}
    (h : ConsumeEffect d.principal d.amount (some d.usageLogId) t t' out) :
    Charge d t t' ∧ t'.charges d.usageLogId ≠ [] := by
  cases h with
  | replayed named recorded same =>
    cases named
    exact ⟨.refl d t, charges_ne_nil recorded⟩
  | charged unrecorded moved =>
    have hfresh := unrecorded d.usageLogId rfl
    obtain ⟨b, hb, -⟩ := moved.wallet
    have hcharges : t'.charges d.usageLogId = [out.2] :=
      charges_of_fresh hfresh moved.records (by rw [moved.tables]; rfl)
    have hwallet := wallet_updateBalance (p := d.principal)
      (fun b => b.principal_debit d.amount) (Option.isSome_of_eq_some hb)
    rw [if_pos rfl] at hwallet
    refine ⟨.made (charges_eq_nil.mpr hfresh) hcharges moved.records ?_, ?_⟩
    · rw [moved.tables]
      exact congrArg totalConsumed hwallet
    · simp [hcharges]

end Charge

/-! ## One visit -/

/-- What is known of a run by the phase it is in: it settles and consumes only a nonnegative
amount, and settles a row of its own principal. -/
def Phase.Reached (d : Deduction) (db : Database) : Phase → Prop
  | settling _ => 0 ≤ d.amount ∧
      ∃ r, db.reservation? d.billingRequestId = some r ∧ r.principal = d.principal
  | consuming => 0 ≤ d.amount
  | _ => True

namespace Deduction

variable {d : Deduction} {token : Option Uuid} {tick : Tick} {phase : Phase} {db : Database}

theorem locate_reached (db : Database) : (d.locate token db.toTables).Reached d db := by
  unfold locate BalanceReservation.settleLocate
  split
  · exact trivial
  · rename_i hlocate
    split at hlocate
    · cases hlocate
    · rename_i hnonneg
      exact not_lt.mp hnonneg
  · rename_i snapshot hlocate
    split at hlocate
    · cases hlocate
    · rename_i hnonneg
      refine ⟨not_lt.mp hnonneg, ?_⟩
      split at hlocate
      · cases hlocate
      · rename_i r hr
        split at hlocate
        · cases hlocate
        · rename_i hsame
          simp only [not_or, not_not] at hsame
          exact ⟨r, hr, by rw [BalanceReservation.principal, hsame.1, hsame.2]; rfl⟩

end Deduction

/-- **Everything one visit of an unfinished run can do.** -/
inductive Visit (d : Deduction) (token : Option Uuid) (tick : Tick) (db : Database) :
    Phase → Phase → Database → Prop where
  | entered : Visit d token tick db .queued .locating db
  | located : Visit d token tick db .locating (d.locate token db.toTables) db
  | failed (phase : Phase) (e : BillingError) :
      Visit d token tick db phase (.returned (.error e)) db
  | settled {snapshot : BalanceReservation} {out : Option (UserBalance × BalanceTransaction)}
      {db' : Database} (effect : SettleEffect tick.now (d.settleRequest token)
        db.toTables db'.toTables out) :
      Visit d token tick db (.settling snapshot) (Deduction.afterSettle (.ok out)) db'
  | consumed {out : UserBalance × BalanceTransaction} {db₁ db' : Database}
      (wallet : (db.balance? d.principal).isSome)
      (reclaimed : db₁.toTables = db.toTables.reclaim [d.principal] tick.now)
      (effect : ConsumeEffect d.principal d.amount (some d.usageLogId) db₁.toTables
        db'.toTables out) :
      Visit d token tick db .consuming (.returned (.ok ())) db'
  | acknowledged (owed : d.amount < 0 ∨ db.balance? d.principal = none) :
      Visit d token tick db .consuming (.returned (.ok ())) db

theorem consumeInTx_wallet {now : Timestamp} {transactionId : Uuid} {p : Principal} {amount : ℤ}
    {usageLogId : Option Uuid} {description : Option String}
    {out : UserBalance × BalanceTransaction} {db db' : Database}
    (h : consumeInTx now transactionId p amount usageLogId description db =
      (.ok out, db')) : (db.balance? p).isSome := by
  obtain ⟨⟨b, totals⟩, db₁, hlock, -⟩ := Tx.bind_eq_ok.mp h
  obtain ⟨hreclaim, hb, -⟩ := lockReclaimed_inversion hlock
  rw [← isSome_reclaim [p] now, ← hreclaim, hb]
  rfl

theorem acknowledge_consumeError {α : Type} (userId : Uuid) {e : DbError} (h : e.Transient) :
    acknowledge (.error (BalanceService.consumeError userId e) : Except BillingError α) =
      .error (BalanceService.consumeError userId e) := by
  simp [BalanceService.consumeError, h.1, h.2, acknowledge]

theorem acknowledge_error_cases {α : Type} (e : BillingError) :
    acknowledge (.error e : Except BillingError α) = .ok () ∨
      acknowledge (.error e : Except BillingError α) = .error e := by
  cases e with
  | validationError => exact .inl rfl
  | serviceUnavailable | databaseError => exact .inr rfl

namespace Deduction

variable {d : Deduction} {token : Option Uuid} {tick : Tick} {phase : Phase} {db : Database}

theorem advance_visit (unfinished : phase.finished = false) (token : Option Uuid) (tick : Tick)
    (db : Database) :
    Visit d token tick db phase (d.advance token tick (phase, db)).1
      (d.advance token tick (phase, db)).2 := by
  cases phase with
  | queued =>
    rw [advance_queued, enter]
    cases BalanceService.settlementTurn tick.turnGranted with
    | error e => exact .failed _ e
    | ok _ => exact .entered
  | locating => exact .located
  | settling snapshot =>
    simp only [advance]
    rcases hrun : atomically (settleInTx tick.now tick.transactionId snapshot
      (d.settleRequest token)) db with ⟨e | out, db'⟩
    · rw [atomically_error_state hrun]
      exact .failed _ _
    · exact .settled (settleInTx_cases (atomically_eq_ok.mp hrun))
  | consuming =>
    simp only [advance, BalanceService.consume]
    split
    · rename_i hamount
      exact .acknowledged (.inl (hamount.resolve_right (by simp)))
    · rename_i hamount
      rcases hrun : consume tick.now tick.transactionId d.principal d.amount
        (some d.usageLogId) (some d.description) db with ⟨e | out, db'⟩
      · obtain ⟨-, rfl⟩ := atomically_eq_error.mp hrun
        -- an error leaves the database alone; it is acknowledged only when the wallet is missing
        cases hb : db'.balance? d.principal with
        | none =>
          rcases acknowledge_error_cases (α := UserBalance × BalanceTransaction)
            (BalanceService.consumeError d.principal.userId e) with hack | hack
          · simp only [hack]
            exact .acknowledged (.inr hb)
          · simp only [hack]
            exact .failed _ _
        | some b =>
          have htransient := consume_transient (Option.isSome_of_eq_some hb)
            (not_lt.mp (not_or.mp hamount).1) hrun
          simp only [acknowledge_consumeError _ htransient]
          exact .failed _ _
      · have hbody := (consume_eq_ok hrun).2
        obtain ⟨db₁, hreclaim, heffect⟩ := consumeInTx_cases hbody
        exact .consumed (consumeInTx_wallet hbody) hreclaim heffect
  | returned | abandoned => cases unfinished

end Deduction

namespace Visit

variable {d : Deduction} {token : Option Uuid} {tick : Tick} {phase next : Phase}
  {db db' : Database}

theorem steps (h : Visit d token tick db phase next db') :
    WalletSteps (fun act => act = .charge (some d.usageLogId) ∨ act = .reclaim) db db' := by
  cases h with
  | entered | located | failed => exact .refl db
  | settled effect => exact .single (.settled effect) (.inl rfl)
  | consumed wallet reclaimed effect =>
    exact (WalletSteps.of_reclaim (.inr rfl) reclaimed).trans
      (.single (.consumed effect) (.inl rfl))
  | acknowledged => exact .refl db

theorem charge (h : Visit d token tick db phase next db') (reached : phase.Reached d db) :
    Charge d db.toTables db'.toTables := by
  cases h with
  | entered | located | failed => exact .refl d _
  | settled effect =>
    obtain ⟨-, r, hr, hprincipal⟩ := reached
    refine (Charge.of_settle (fun r' hr' => ?_) effect).1
    cases hr.symm.trans hr'
    exact hprincipal
  | consumed wallet reclaimed effect =>
    have hcharge := (Charge.of_consume effect).1
    rw [reclaimed] at hcharge
    exact hcharge.after_reclaim
  | acknowledged => exact .refl d _

theorem reached (h : Visit d token tick db phase next db') (reached : phase.Reached d db) :
    next.Reached d db' := by
  cases h with
  | entered => trivial
  | located => exact Deduction.locate_reached db
  | failed => trivial
  | @settled snapshot out db' effect =>
    cases out with
    | none => exact reached.1
    | some out => trivial
  | consumed => trivial
  | acknowledged => trivial

theorem success (h : Visit d token tick db phase next db') (reached : phase.Reached d db)
    (wallet : (db.balance? d.principal).isSome) (succeeded : next.succeeded) :
    db'.charges d.usageLogId ≠ [] := by
  cases h with
  | entered => cases succeeded
  | located =>
    unfold Deduction.locate at succeeded
    split at succeeded <;> cases succeeded
  | failed => cases succeeded
  | @settled snapshot out db' effect =>
    obtain ⟨-, r, hr, hprincipal⟩ := reached
    cases out with
    | none => cases succeeded
    | some out =>
      refine (Charge.of_settle (fun r' hr' => ?_) effect).2 rfl
      cases hr.symm.trans hr'
      exact hprincipal
  | consumed wallet reclaimed effect => exact (Charge.of_consume effect).2
  | acknowledged owed =>
    rcases owed with hneg | hnone
    · exact absurd reached (not_le.mpr hneg)
    · rw [hnone] at wallet
      cases wallet

/-- **The fence**: a visit keeps every reservation under another token that has not expired by
the clock of its transaction. -/
theorem fenced (h : Visit d token tick db phase next db') {r : BalanceReservation}
    (member : r ∈ db.balanceReservations) (unexpired : tick.now < r.expiresAt)
    (foreign : some r.ownerToken ≠ token) : r ∈ db'.balanceReservations := by
  have hupdate (g : BalanceReservation → BalanceReservation) {r₀ : BalanceReservation}
      (found : db.reservation? d.billingRequestId = some r₀) (owner : some r₀.ownerToken = token) :
      r ∈ updateKey requestId d.billingRequestId g db.balanceReservations := by
    refine mem_updateWhere.mpr ⟨r, member, if_neg ?_⟩
    intro hrequest
    -- the row that is written is the one of the token
    have hfound := Database.reservation?_eq_some.mpr ⟨member, of_decide_eq_true hrequest⟩
    cases found.symm.trans hfound
    exact foreign owner
  cases h with
  | entered | located | failed => exact member
  | settled effect =>
    generalize db'.toTables = t' at effect ⊢
    cases effect with
    | replayed => exact member
    | declined => exact member
    | reconciled found status owner => exact hupdate _ found owner
    | charged found status owner => exact hupdate _ found owner
  | @consumed out db₁ db' wallet reclaimed effect =>
    have hreclaim : r ∈ db₁.balanceReservations := by
      rw [reclaimed]
      refine mem_updateWhere.mpr ⟨r, member, if_neg ?_⟩
      intro hrow
      exact absurd (of_decide_eq_true hrow).2.2 (not_le.mpr unexpired)
    generalize db'.toTables = t' at effect ⊢
    cases effect with
    | replayed => exact hreclaim
    | charged unrecorded moved =>
      rw [moved.tables]
      exact hreclaim
  | acknowledged => exact member

theorem frozen (h : Visit d token tick db phase next db') (q : Principal) :
    (db'.wallet q).frozenBalance - db'.activeTotal q =
      (db.wallet q).frozenBalance - db.activeTotal q := by
  have hmoves : Moves (fun k => k = none ∨ k = some .debit) (db.view q) (db'.view q) := by
    cases h with
    | entered | located | failed => exact Moves.refl _
    | settled effect => exact SettleEffect.moves effect (.inl rfl) (.inr rfl) q
    | @consumed out db₁ db' wallet reclaimed effect =>
      have hreclaim : Moves (fun k => k = none ∨ k = some .debit) (db.view q) (db₁.view q) := by
        grind [moves_reclaim, List.mem_singleton.mp]
      exact hreclaim.trans (ConsumeEffect.moves effect (.inr rfl) q)
    | acknowledged => exact Moves.refl _
  exact hmoves.locked (by simp) (by simp)

end Visit

/-! ## The invariant of the system -/

/-- The log is not charged, or charged once and for the whole amount. -/
inductive Charged (d : Deduction) (db : Database) (consumed : ℤ) : Prop where
  | none (charges : db.charges d.usageLogId = []) (zero : consumed = 0)
  | once {x : BalanceTransaction} (charges : db.charges d.usageLogId = [x])
      (records : x.Records d.principal .consume none (some d.usageLogId) (-d.amount))
      (whole : consumed = d.amount)

structure Run.Sound (d : Deduction) (db : Database) (run : Run) : Prop where
  wallet : run.payable → (db.balance? d.principal).isSome
  reached : run.phase.Reached d db
  success : run.payable → run.phase.succeeded → db.charges d.usageLogId ≠ []

structure Fleet.Sound (d : Deduction) (s : Fleet) : Prop where
  charged : Charged d s.db s.consumed
  runs : ∀ run ∈ s.runs, run.Sound d s.db

section Invariant

variable {d : Deduction} {db db' : Database} {acts : Act → Prop} {s : Fleet}

theorem Phase.Reached.mono {phase : Phase} (h : phase.Reached d db)
    (steps : WalletSteps acts db db') : phase.Reached d db' := by
  cases phase with
  | settling snapshot =>
    obtain ⟨hnonneg, r, hr, hprincipal⟩ := h
    obtain ⟨r', hr', hprincipal'⟩ := steps.row_persists hr
    exact ⟨hnonneg, r', hr', hprincipal'.trans hprincipal⟩
  | consuming => exact h
  | _ => trivial

theorem Run.Sound.mono {run : Run} (h : run.Sound d db) (steps : WalletSteps acts db db')
    (charges : db.charges d.usageLogId ≠ [] → db'.charges d.usageLogId ≠ []) :
    run.Sound d db' where
  wallet payable := steps.wallet_persists (h.wallet payable)
  reached := h.reached.mono steps
  success payable succeeded := charges (h.success payable succeeded)

theorem Charge.charges_persist {t t' : Tables} (h : Charge d t t')
    (charged : t.charges d.usageLogId ≠ []) : t'.charges d.usageLogId ≠ [] := by
  cases h with
  | kept charges consumed => rwa [charges]
  | made fresh recorded records consumed => exact absurd fresh charged

theorem Charged.after {consumed : ℤ} (h : Charged d db consumed)
    (charge : Charge d db.toTables db'.toTables) :
    Charged d db' (consumed +
      ((db'.wallet d.principal).totalConsumed - (db.wallet d.principal).totalConsumed)) := by
  cases charge with
  | kept charges same =>
    rw [same, sub_self, add_zero]
    cases h with
    | none hcharges zero => exact .none (charges.trans hcharges) zero
    | once hcharges records whole => exact .once (charges.trans hcharges) records whole
  | made fresh recorded records grown =>
    cases h with
    | none hcharges zero => exact .once recorded records (by omega)
    | once hcharges => cases fresh.symm.trans hcharges

theorem Fleet.Sound.visitRun {i : Nat} {run : Run} (h : s.Sound d) (member : run ∈ s.runs)
    (unfinished : run.phase.finished = false) (tick : Tick) (ending : Ending) :
    (s.visitRun d i run tick ending).Sound d := by
  have hvisit := Deduction.advance_visit (d := d) unfinished run.token tick s.db
  have hrun := h.runs run member
  have hcharge := ending.rel
    (R := fun before after : Database => Charge d before.toTables after.toTables)
    (.refl d _) (hvisit.charge hrun.reached)
  have hsteps := ending.rel (.refl s.db) hvisit.steps
  refine ⟨h.charged.after hcharge, fun run' member' => ?_⟩
  rcases List.mem_or_eq_of_mem_set member' with hold | rfl
  · exact (h.runs run' hold).mono hsteps hcharge.charges_persist
  · refine ⟨fun payable => hsteps.wallet_persists (hrun.wallet payable), ?_, fun payable => ?_⟩
    · cases ending with
      | answered => exact hvisit.reached hrun.reached
      | lost committed => trivial
    · intro succeeded
      cases ending with
      | answered => exact hvisit.success hrun.reached (hrun.wallet payable) succeeded
      | lost committed => cases succeeded

theorem Fleet.Sound.step {e : Event} (allowed : e.Allowed d) (h : s.Sound d) :
    (Fleet.step d e s).Sound d := by
  cases e with
  | start configured token =>
    refine ⟨h.charged, fun run member => ?_⟩
    rcases List.mem_append.mp member with hold | hnew
    · exact h.runs run hold
    · rw [List.mem_singleton.mp hnew]
      cases configured with
      | false => exact ⟨nofun, trivial, nofun⟩
      | true => exact ⟨id, trivial, fun _ => nofun⟩
  | visit i tick ending =>
    rcases Fleet.step_visit_cases d i tick ending s with hsame | ⟨run, hrun, hunfinished, hstep⟩
    · rwa [hsame]
    · rw [hstep]
      exact h.visitRun (List.mem_of_getElem? hrun) hunfinished tick ending
  | other call =>
    have hsteps := call.steps s.db
    have hcharges := hsteps.charges_eq allowed
    refine ⟨?_, fun run member => (h.runs run member).mono hsteps (hcharges ▸ id)⟩
    cases h.charged with
    | none charges zero => exact .none (hcharges.trans charges) zero
    | once charges records whole => exact .once (hcharges.trans charges) records whole

end Invariant

/-! ## Exactly once -/

/-- **What the runs for one usage log amount to**, in one state of the system.  There is at most
one charge.  Once a payable run has succeeded there is exactly one, for the amount of the log,
and it is all that the runs have added to `total_consumed`.  No visit touches a reservation
that is active under another token and not expired, or the funds frozen apart from active
reservations. -/
structure ChargedOnce (d : Deduction) (s : Fleet) : Prop where
  at_most_one : (s.db.charges d.usageLogId).length ≤ 1
  success : ∀ run ∈ s.runs, run.payable → run.phase.succeeded →
    ∃ x, s.db.charges d.usageLogId = [x] ∧
      x.Records d.principal .consume none (some d.usageLogId) (-d.amount) ∧ s.consumed = d.amount
  fenced : ∀ i tick ending run, s.runs[i]? = some run → ∀ r ∈ s.db.balanceReservations,
    r.status = .active → tick.now < r.expiresAt → some r.ownerToken ≠ run.token →
      r ∈ (Fleet.step d (.visit i tick ending) s).db.balanceReservations
  frozen : ∀ i tick ending, ∀ p,
    ((Fleet.step d (.visit i tick ending) s).db.wallet p).frozenBalance -
        (Fleet.step d (.visit i tick ending) s).db.activeTotal p =
      (s.db.wallet p).frozenBalance - s.db.activeTotal p

section ExactlyOnce

variable {d : Deduction} {s : Fleet}

theorem Fleet.initial_sound {db : Database} (uncharged : db.consumption? d.usageLogId = none) :
    (Fleet.initial db).Sound d :=
  ⟨.none (charges_eq_nil.mpr uncharged) rfl, by simp [Fleet.initial]⟩

theorem Fleet.Sound.success (h : s.Sound d) {run : Run} (member : run ∈ s.runs)
    (payable : run.payable) (succeeded : run.phase.succeeded) :
    ∃ x, s.db.charges d.usageLogId = [x] ∧
      x.Records d.principal .consume none (some d.usageLogId) (-d.amount) ∧
      s.consumed = d.amount := by
  cases h.charged with
  | none charges => exact absurd charges ((h.runs run member).success payable succeeded)
  | once charges records whole => exact ⟨_, charges, records, whole⟩

theorem Fleet.step_visit_fenced (i : Nat) (tick : Tick) (ending : Ending) {run : Run}
    (hrun : s.runs[i]? = some run) {r : BalanceReservation} (member : r ∈ s.db.balanceReservations)
    (unexpired : tick.now < r.expiresAt) (foreign : some r.ownerToken ≠ run.token) :
    r ∈ (Fleet.step d (.visit i tick ending) s).db.balanceReservations := by
  rcases Fleet.step_visit_cases d i tick ending s with hsame | ⟨run', hrun', hunfinished, hstep⟩
  · rwa [hsame]
  · cases hrun.symm.trans hrun'
    rw [hstep, Fleet.visitRun_db]
    have hvisit := Deduction.advance_visit (d := d) hunfinished run.token tick s.db
    exact ending.rel (R := fun _ after : Database => r ∈ after.balanceReservations) member
      (hvisit.fenced member unexpired foreign)

theorem Fleet.step_visit_frozen (i : Nat) (tick : Tick) (ending : Ending) (p : Principal) :
    ((Fleet.step d (.visit i tick ending) s).db.wallet p).frozenBalance -
        (Fleet.step d (.visit i tick ending) s).db.activeTotal p =
      (s.db.wallet p).frozenBalance - s.db.activeTotal p := by
  rcases Fleet.step_visit_cases d i tick ending s with hsame | ⟨run, hrun, hunfinished, hstep⟩
  · rw [hsame]
  · rw [hstep, Fleet.visitRun_db]
    have hvisit := Deduction.advance_visit (d := d) hunfinished run.token tick s.db
    exact ending.rel (R := fun before after : Database =>
      (after.wallet p).frozenBalance - after.activeTotal p =
        (before.wallet p).frozenBalance - before.activeTotal p) rfl (hvisit.frozen p)

/-- **Exactly-once charging.**  Start from a database in which the log is not charged and let
any number of runs for it interleave with each other, with lost visits, and with any calls that
do not charge this log. -/
theorem deduct_exactly_once (d : Deduction) (db : Database)
    (uncharged : db.consumption? d.usageLogId = none) (events : List Event)
    (allowed : ∀ e ∈ events, e.Allowed d) :
    ChargedOnce d (runAll (Fleet.step d) events (Fleet.initial db)) := by
  have hsound : (runAll (Fleet.step d) events (Fleet.initial db)).Sound d :=
    runAll_invariant_of (I := Fleet.Sound d)
      (fun e s hallowed => Fleet.Sound.step (e := e) hallowed)
      events _ allowed (Fleet.initial_sound uncharged)
  refine ⟨?_, fun run member => hsound.success member, ?_, ?_⟩
  · cases hsound.charged with
    | none charges | once charges => simp [charges]
  · intro i tick ending run hrun r member _ unexpired foreign
    exact Fleet.step_visit_fenced i tick ending hrun member unexpired foreign
  · intro i tick ending p
    exact Fleet.step_visit_frozen i tick ending p

def sampleDeduction : Deduction := ⟨⟨1, 10⟩, 100, 20, 50, "m"⟩

/-- The owner and a stale run race; a lost visit of a third run commits before it is lost. -/
def sampleRace : List Event :=
  [.other (.recharge 1000 ⟨1, 10⟩ 100 none none), .other (.reserve 5 5 ⟨1, 10, 100, 7, 30, 0, 90⟩),
    .start true (some 7), .start true (some 8), .start true (some 7),
    .visit 0 ⟨6, 0, true⟩ .answered, .visit 1 ⟨6, 0, true⟩ .answered,
    .visit 2 ⟨6, 0, true⟩ .answered, .visit 0 ⟨6, 0, true⟩ .answered,
    .visit 1 ⟨6, 0, true⟩ .answered, .visit 2 ⟨6, 0, true⟩ .answered,
    .visit 1 ⟨6, 0, true⟩ .answered, .visit 2 ⟨6, 1001, true⟩ (.lost true),
    .visit 0 ⟨6, 1002, true⟩ .answered, .visit 1 ⟨7, 1003, true⟩ .answered]

theorem sampleRace_allowed : ∀ e ∈ sampleRace, e.Allowed sampleDeduction := by
  intro e member
  simp only [sampleRace, List.mem_cons, List.not_mem_nil, or_false] at member
  rcases member with rfl | rfl | rfl | rfl | rfl | rfl | rfl | rfl | rfl | rfl | rfl | rfl | rfl |
    rfl | rfl
  · rintro ⟨⟩
  · rintro (⟨⟨⟩⟩ | ⟨⟨⟩⟩)
  all_goals trivial

/-- Two runs succeed after the lost one has charged, and there is one charge. -/
theorem deduct_exactly_once_sampleRace :
    ((runAll (Fleet.step sampleDeduction) sampleRace (Fleet.initial freshTenant)).runs.map
        fun run => (run.payable, run.phase.succeeded)) =
        [(true, true), (true, true), (true, false)] ∧
      ChargedOnce sampleDeduction
        (runAll (Fleet.step sampleDeduction) sampleRace (Fleet.initial freshTenant)) :=
  ⟨by decide, deduct_exactly_once sampleDeduction freshTenant (by decide) sampleRace
    sampleRace_allowed⟩

/-- Without a wallet: the run is acknowledged and nothing is charged. -/
def walletlessRun : List Event :=
  [.start true (some 7), .visit 0 ⟨6, 0, true⟩ .answered, .visit 0 ⟨6, 0, true⟩ .answered,
    .visit 0 ⟨6, 1001, true⟩ .answered]

/-- A run with a stale token has reached `consume`; the reservation is active under token 8 and
its time has passed. -/
def staleRun : List Event :=
  [.other (.recharge 1000 ⟨1, 10⟩ 100 none none), .other (.reserve 5 5 ⟨1, 10, 100, 8, 30, 0, 90⟩),
    .start true (some 7), .visit 0 ⟨95, 0, true⟩ .answered, .visit 0 ⟨95, 0, true⟩ .answered,
    .visit 0 ⟨95, 0, true⟩ .answered]

/-- **Success does not imply a charge, and an expired reservation of another owner is not
fenced.**  A run without a wallet succeeds with no charge.  The last visit of a stale run gives
back the funds that a reservation, active under token 8 at that moment, had frozen. -/
theorem deduct_unfenced :
    ((runAll (Fleet.step sampleDeduction) walletlessRun (Fleet.initial freshTenant)).runs.map
          fun run => run.phase.succeeded) = [true] ∧
      (runAll (Fleet.step sampleDeduction) walletlessRun (Fleet.initial freshTenant)).db.charges
          50 = [] ∧
      ((runAll (Fleet.step sampleDeduction) staleRun
          (Fleet.initial freshTenant)).db.balanceReservations.map
        fun r => (r.ownerToken, r.amount, r.status)) = [(8, 30, .active)] ∧
      ((runAll (Fleet.step sampleDeduction) staleRun (Fleet.initial freshTenant)).db.wallet
          ⟨1, 10⟩).frozenBalance = 30 ∧
      ((Fleet.step sampleDeduction (.visit 0 ⟨95, 1001, true⟩ .answered)
          (runAll (Fleet.step sampleDeduction) staleRun
            (Fleet.initial freshTenant))).db.wallet ⟨1, 10⟩).frozenBalance = 0 :=
  ⟨by decide, by decide, by decide, by decide, by decide +kernel⟩

end ExactlyOnce

end Billing

end KeyCompute
