import KeyCompute.Accounting.Claim
import KeyCompute.Tips.Tip
import KeyCompute.Wallet.Ledger

/-!
# Withdrawals of node earnings

`create`, `review` and `complete_external` of `keycompute-db/src/models/node_tip_withdrawal.rs`.

A withdrawal takes **everything** a purse still has.  A `balance` withdrawal pays it into the wallet
of the owner at once; an `alipay` withdrawal waits for a review and, if approved, for the
attestation of the payout.  A rejected withdrawal gives its amount back.

The tables record no link between a tip and a withdrawal; `TipBook` adds one as ghost state.
-/

namespace KeyCompute

open Relational Accounting NodeTipWithdrawal

/-! ## Rows -/

structure WithdrawalView where
  id : Uuid
  tenantId : Uuid
  ownerUserId : Uuid
  requestId : Uuid
  withdrawalType : WithdrawalType
  totalAmount : ℤ
  currency : String
  status : WithdrawalStatus
  payoutDetailsPresent : Bool
  adminId : Option Uuid
  adminRemark : Option String
  payoutReference : Option String
  balanceTransactionId : Option Uuid
  revision : ℤ
  actionedAt : Option Timestamp
  completedAt : Option Timestamp
  deriving DecidableEq

structure WithdrawalIntent where
  requestId : Uuid
  withdrawalType : String
  currency : String
  recipientFingerprint : String
  encryptedAlipayAccount : Option String
  encryptedRealName : Option String

inductive WithdrawalReview where
  | approve | reject
  deriving DecidableEq

structure ReviewWithdrawal where
  id : Uuid
  expectedRevision : ℤ
  action : WithdrawalReview
  reason : String

structure CompleteWithdrawal where
  id : Uuid
  expectedRevision : ℤ
  reason : String
  payoutReference : String

/-- The answers of the authority checks, with those of the guarded `SELECT` and `UPDATE`. -/
structure TipAuthority extends Authority where
  selectAllowed : Bool
  updateAllowed : Bool

namespace Tables

variable (t : Tables)

/-- `SELECT … WHERE tenant_id = … AND owner_user_id = … AND request_id = …`. -/
def withdrawalOfRequest? (key : Uuid × Uuid × Uuid) : Option NodeTipWithdrawal :=
  lookup NodeTipWithdrawal.key key t.nodeTipWithdrawals

def insertWithdrawal (row : NodeTipWithdrawal) : Tables :=
  { t with nodeTipWithdrawals := t.nodeTipWithdrawals ++ [row] }

def updateWithdrawals (p : NodeTipWithdrawal → Bool) (f : NodeTipWithdrawal → NodeTipWithdrawal) :
    Tables :=
  { t with nodeTipWithdrawals := updateWhere p f t.nodeTipWithdrawals }

end Tables

namespace NodeTipWithdrawal

def owner (w : NodeTipWithdrawal) : Principal := ⟨w.tenantId, w.ownerUserId⟩

def view (w : NodeTipWithdrawal) : WithdrawalView where
  id := w.id
  tenantId := w.tenantId
  ownerUserId := w.ownerUserId
  requestId := w.requestId
  withdrawalType := w.withdrawalType
  totalAmount := w.totalAmount
  currency := w.currency
  status := w.status
  payoutDetailsPresent := w.encryptedAlipayAccount.isSome && w.encryptedRealName.isSome
  adminId := w.adminId
  adminRemark := w.adminRemark
  payoutReference := w.payoutReference
  balanceTransactionId := w.balanceTransactionId
  revision := w.revision
  actionedAt := w.actionedAt
  completedAt := w.completedAt

/-! ## `create` -/

def fingerprint (sha256Hex : List UInt8 → String) (parts : List String) : String :=
  sha256Hex (parts.flatMap fun part => beBytes 8 (Text.bytes part).length ++ Text.bytes part)

/-- The payload checks of `create`, and the type they accept. -/
def checkPayload (spec : WithdrawalIntent) : Except DbError WithdrawalType :=
  let sealed (v : Option String) : Bool :=
    v.any fun text => (Text.bytes text).length ≠ 0 ∧ (Text.bytes text).length ≤ 4096
  if spec.withdrawalType = "balance" ∧ spec.encryptedAlipayAccount = none ∧
      spec.encryptedRealName = none then .ok .balance
  else if spec.withdrawalType = "alipay" ∧ sealed spec.encryptedAlipayAccount ∧
      sealed spec.encryptedRealName then .ok .alipay
  else .error (.other "withdrawal_request_invalid")

def isAsciiHexdigit (b : UInt8) : Bool :=
  (0x30 ≤ b && b ≤ 0x39) || (0x41 ≤ b && b ≤ 0x46) || (0x61 ≤ b && b ≤ 0x66)

/-- What `create` asks for, once its arguments are checked. -/
structure CreateRequest where
  owner : Principal
  money : String
  kind : WithdrawalType
  spec : WithdrawalIntent

/-- The checks of `create` before its transaction. -/
def checkCreate (scope : FinancialScope) (spec : WithdrawalIntent) :
    Except DbError CreateRequest := do
  scope.requirePersonal
  let tenantId ← scope.tenantId
  let money ← tipCurrency spec.currency
  if spec.requestId.isNil ∨ money ≠ "CNY" ∨ (Text.bytes spec.recipientFingerprint).length ≠ 64 ∨
      ¬ (Text.bytes spec.recipientFingerprint).all isAsciiHexdigit then
    .error (.other "withdrawal_request_invalid")
  else
    let kind ← checkPayload spec
    pure { owner := ⟨tenantId, scope.userId⟩, money, kind, spec }

namespace CreateRequest

def key (req : CreateRequest) : Uuid × Uuid × Uuid :=
  (req.owner.tenantId, req.owner.userId, req.spec.requestId)

def purse (req : CreateRequest) : Purse := ⟨req.owner, req.money⟩

/-- The fingerprint that says which request a key stands for. -/
def requestFingerprint (sha256Hex : List UInt8 → String) (req : CreateRequest) : String :=
  fingerprint sha256Hex ["tip-withdrawal-v2", toString req.owner.tenantId,
    toString req.owner.userId, req.spec.withdrawalType, req.money, req.spec.recipientFingerprint]

/-- The inserted row, with the defaults of the schema. -/
def row (sha256Hex : List UInt8 → String) (id : Uuid) (amount : ℤ) (req : CreateRequest) :
    NodeTipWithdrawal where
  id := id
  tenantId := req.owner.tenantId
  ownerUserId := req.owner.userId
  requestId := req.spec.requestId
  requestFingerprint := req.requestFingerprint sha256Hex
  withdrawalType := req.kind
  totalAmount := amount
  currency := req.money
  encryptedAlipayAccount := req.spec.encryptedAlipayAccount
  encryptedRealName := req.spec.encryptedRealName
  status := .pending
  adminId := none
  adminRemark := none
  payoutReference := none
  balanceTransactionId := none
  revision := 1
  actionedAt := none
  completedAt := none

end CreateRequest

/-- The keys a call generates and its readings of `clock_timestamp()`. -/
structure WithdrawalTick where
  id : Uuid
  transactionId : Uuid
  completedAt : Timestamp
  actionedAt : Timestamp

/-- `WHERE … AND id = … AND status = 'pending' AND withdrawal_type = 'balance'`. -/
def convertible (row : NodeTipWithdrawal) (w : NodeTipWithdrawal) : Bool :=
  decide (w.owner = row.owner ∧ w.id = row.id ∧ w.status = .pending ∧ w.withdrawalType = .balance)

/-- `SET status='completed', balance_transaction_id=…`, and the next revision, which a trigger
writes. -/
def convert (tick : WithdrawalTick) (transactionId : Uuid) (w : NodeTipWithdrawal) :
    NodeTipWithdrawal :=
  { w with
    status := .completed, balanceTransactionId := some transactionId,
    completedAt := some tick.completedAt, actionedAt := some tick.actionedAt,
    revision := w.revision + 1 }

/-- The payment of a `balance` withdrawal into the wallet. -/
def payIntoBalance (tick : WithdrawalTick) (row : NodeTipWithdrawal) : DbTx NodeTipWithdrawal := do
  let (_, transaction) ← UserBalance.creditTips tick.transactionId row.owner row.totalAmount
    (some "Tenant node earnings converted to CNY balance")
  let found ← Tx.read (·.nodeTipWithdrawals.find? row.convertible)
  let pending ← Tx.okOr found (.other "withdrawal_state_conflict")
  exec (·.updateWithdrawals row.convertible (convert tick transaction.id))
  pure (pending.convert tick transaction.id)

def payOut (tick : WithdrawalTick) (row : NodeTipWithdrawal) : DbTx NodeTipWithdrawal :=
  if row.withdrawalType = .balance then payIntoBalance tick row else pure row

/-- The row of a request that was seen before. -/
def createReplay (authority : TipAuthority) (key : String) (old : NodeTipWithdrawal) :
    DbTx WithdrawalView := do
  Tx.failIf (old.requestFingerprint ≠ key) (.other "withdrawal_idempotency_conflict")
  checkAuthority authority.finalActor
  pure old.view

section

variable (sha256Hex : List UInt8 → String)

def createNew (tick : WithdrawalTick) (authority : TipAuthority) (scope : FinancialScope)
    (req : CreateRequest) : DbTx WithdrawalView := do
  let summary ← NodeTip.summary authority.selectAllowed scope req.money
  Tx.failIf (summary.pendingAmount ≤ 0) (.other "no_withdrawable_tips")
  exec (·.insertWithdrawal (req.row sha256Hex tick.id summary.pendingAmount))
  let row ← payOut tick (req.row sha256Hex tick.id summary.pendingAmount)
  checkAuthority authority.audit
  checkAuthority authority.finalActor
  pure row.view

def createInTx (tick : WithdrawalTick) (authority : TipAuthority) (scope : FinancialScope)
    (req : CreateRequest) : DbTx WithdrawalView := do
  checkAuthority authority.lock
  checkAuthority authority.currentActor
  let old ← Tx.read (·.withdrawalOfRequest? req.key)
  match old with
  | some old => createReplay authority (req.requestFingerprint sha256Hex) old
  | none => createNew sha256Hex tick authority scope req

def create (tick : WithdrawalTick) (authority : TipAuthority) (scope : FinancialScope)
    (spec : WithdrawalIntent) : Database → Except DbError WithdrawalView × Database :=
  atomically do
    let req ← Tx.lift (checkCreate scope spec)
    createInTx sha256Hex tick authority scope req

end

/-! ## `review` and `complete_external` -/

/-- `node_tip_withdrawal::reason`. -/
def checkReason (value : String) : Except DbError String :=
  let value := Text.trim value
  if value = "" ∨ 500 < (Text.bytes value).length ∨ value.toList.any Text.isControl then
    .error (.other "financial_reason_invalid")
  else .ok value

/-- The check of the target of `review` and `complete_external`. -/
def checkTarget (id : Uuid) (expectedRevision : ℤ) : Except DbError Unit :=
  if id.isNil ∨ expectedRevision ≤ 0 then .error (.other "withdrawal_revision_invalid") else .ok ()

def locked (authority : TipAuthority) (scope : FinancialScope) (id : Uuid) :
    DbTx NodeTipWithdrawal := do
  let tenantId ← Tx.lift scope.tenantId
  let found ← Tx.read (·.nodeTipWithdrawals.find? fun w =>
    decide (w.tenantId = tenantId ∧ w.id = id) && scope.ownerPredicate w.ownerUserId &&
      authority.selectAllowed)
  Tx.okOr found (.notFound "Tip withdrawal" (toString id))

/-- `WHERE tenant_id = … AND id = … AND revision = … AND status = …` and the authority. -/
def atRevision (authority : TipAuthority) (before : NodeTipWithdrawal) (w : NodeTipWithdrawal) :
    Bool :=
  decide (w.tenantId = before.tenantId ∧ w.id = before.id ∧ w.revision = before.revision ∧
    w.status = before.status) && authority.updateAllowed

/-- The guarded update of a locked row, its audit and the last authority check. -/
def decideLocked (authority : TipAuthority) (before : NodeTipWithdrawal)
    (f : NodeTipWithdrawal → NodeTipWithdrawal) : DbTx WithdrawalView := do
  let found ← Tx.read (·.nodeTipWithdrawals.find? (atRevision authority before))
  let w ← Tx.okOr found (.other "withdrawal_state_conflict")
  exec (·.updateWithdrawals (atRevision authority before) f)
  checkAuthority authority.audit
  checkAuthority authority.finalActor
  pure (f w).view

/-- `SET status=…, admin_id=…, admin_remark=…, actioned_at=clock_timestamp()`. -/
def reviewed (tick : WithdrawalTick) (scope : FinancialScope) (action : WithdrawalReview)
    (why : String) (w : NodeTipWithdrawal) : NodeTipWithdrawal :=
  { w with
    status := if action = .approve then .approved else .rejected, adminId := some scope.userId,
    adminRemark := some why, actionedAt := some tick.actionedAt, revision := w.revision + 1 }

def review (tick : WithdrawalTick) (authority : TipAuthority) (scope : FinancialScope)
    (command : ReviewWithdrawal) : Database → Except DbError WithdrawalView × Database :=
  atomically do
    Tx.lift scope.requireAdmin
    let why ← Tx.lift (checkReason command.reason)
    Tx.lift (checkTarget command.id command.expectedRevision)
    checkAuthority authority.lock
    let before ← locked authority scope command.id
    Tx.failIf (before.revision ≠ command.expectedRevision ∨ before.status ≠ .pending ∨
      before.withdrawalType ≠ .alipay) (.other "withdrawal_state_conflict")
    decideLocked authority before (reviewed tick scope command.action why)

/-- `SET status='completed', payout_reference=…, admin_id=…, admin_remark=…, …`. -/
def paidOut (tick : WithdrawalTick) (scope : FinancialScope) (reference why : String)
    (w : NodeTipWithdrawal) : NodeTipWithdrawal :=
  { w with
    status := .completed, payoutReference := some reference, adminId := some scope.userId,
    adminRemark := some why, completedAt := some tick.completedAt,
    actionedAt := some tick.actionedAt, revision := w.revision + 1 }

/-- The completion was recorded before, with the same reference. -/
def CompletedBefore (before : NodeTipWithdrawal) (command : CompleteWithdrawal)
    (reference : String) : Prop :=
  before.status = .completed ∧ before.payoutReference = some reference ∧
    before.revision - 1 = command.expectedRevision

instance (before : NodeTipWithdrawal) (command : CompleteWithdrawal) (reference : String) :
    Decidable (before.CompletedBefore command reference) :=
  inferInstanceAs (Decidable (_ ∧ _))

def completeApproved (tick : WithdrawalTick) (authority : TipAuthority) (scope : FinancialScope)
    (command : CompleteWithdrawal) (reference why : String) (before : NodeTipWithdrawal) :
    DbTx WithdrawalView := do
  Tx.failIf (before.revision ≠ command.expectedRevision ∨ before.status ≠ .approved ∨
    before.withdrawalType ≠ .alipay) (.other "withdrawal_state_conflict")
  decideLocked authority before (paidOut tick scope reference why)

def completeExternal (tick : WithdrawalTick) (authority : TipAuthority) (scope : FinancialScope)
    (command : CompleteWithdrawal) : Database → Except DbError WithdrawalView × Database :=
  atomically do
    Tx.lift scope.requirePlatformTenant
    let why ← Tx.lift (checkReason command.reason)
    let reference ← Tx.lift (checkReason command.payoutReference)
    Tx.lift (checkTarget command.id command.expectedRevision)
    checkAuthority authority.lock
    let before ← locked authority scope command.id
    if before.CompletedBefore command reference then pure before.view
    else completeApproved tick authority scope command reference why before

end NodeTipWithdrawal

/-! ## Purses -/

namespace Tables

def liveIn (k : Purse) (w : NodeTipWithdrawal) : Bool :=
  decide (w.purse = k ∧ w.status ≠ .rejected)

variable (t : Tables)

def pending (k : Purse) : ℤ :=
  totalWhere (fun x => x.purse = k) NodeTip.tipAmount t.nodeTips -
    totalWhere (liveIn k) totalAmount t.nodeTipWithdrawals

theorem summaryRow_pendingAmount {scope : FinancialScope} (personal : scope.access = .personal)
    (tenantId : Uuid) (money : String) :
    (NodeTip.summaryRow scope tenantId money t).pendingAmount =
      t.pending ⟨⟨tenantId, scope.userId⟩, money⟩ := by
  have howner (id : Uuid) : scope.ownerPredicate id = decide (id = scope.userId) := by
    simp [FinancialScope.ownerPredicate, personal]
  have htips : totalWhere (fun x => decide (x.tenantId = tenantId ∧ x.currency = money) &&
      scope.ownerPredicate x.ownerUserId) NodeTip.tipAmount t.nodeTips =
      totalWhere (fun x => x.purse = ⟨⟨tenantId, scope.userId⟩, money⟩) NodeTip.tipAmount
        t.nodeTips := by
    grind [totalWhere_congr, contribution, NodeTip.purse, Purse.mk.injEq, Principal.mk.injEq]
  have hlive : totalWhere (fun w => decide (w.tenantId = tenantId ∧ w.currency = money) &&
        scope.ownerPredicate w.ownerUserId && (w.status = .pending ∨ w.status = .approved))
        totalAmount t.nodeTipWithdrawals +
      totalWhere (fun w => decide (w.tenantId = tenantId ∧ w.currency = money) &&
        scope.ownerPredicate w.ownerUserId && w.status = .completed)
        totalAmount t.nodeTipWithdrawals =
      totalWhere (liveIn ⟨⟨tenantId, scope.userId⟩, money⟩) totalAmount
        t.nodeTipWithdrawals := by
    refine totalWhere_add fun w _ => ?_
    simp only [contribution, howner, liveIn, purse, Purse.mk.injEq,
      Principal.mk.injEq]
    cases w.status <;> simp <;> grind
  rw [pending, ← htips, ← hlive]
  exact (sub_sub _ _ _)

end Tables

/-! ## What the calls do -/

namespace NodeTipWithdrawal

/-- **A new withdrawal** of everything its purse had. -/
structure Opens (t : Tables) (row : NodeTipWithdrawal) : Prop where
  amount : row.totalAmount = t.pending row.purse
  live : row.status ≠ .rejected

/-- **Everything a successful `create` does**, and the row it answers with. -/
inductive CreateEffect (req : CreateRequest) (t : Tables) : NodeTipWithdrawal → Tables → Prop where
  | replayed {old : NodeTipWithdrawal} (found : t.withdrawalOfRequest? req.key = some old) :
      CreateEffect req t old t
  | external {row : NodeTipWithdrawal} (fresh : t.withdrawalOfRequest? req.key = none)
      (key : row.key = req.key) (type : row.withdrawalType = .alipay) (opens : Opens t row) :
      CreateEffect req t row (t.insertWithdrawal row)
  | converted {row : NodeTipWithdrawal} {x : BalanceTransaction}
      (fresh : t.withdrawalOfRequest? req.key = none) (key : row.key = req.key)
      (type : row.withdrawalType = .balance) (opens : Opens t row)
      (credit : row.balanceTransactionId = some x.id)
      (records : x.Records row.owner .tipCredit none none row.totalAmount) :
      CreateEffect req t row
        (((t.insertWithdrawal row).creditOrInsert row.owner row.totalAmount).insertTransaction x)

/-- What `create` relies on from its checks. -/
structure Checked (scope : FinancialScope) (req : CreateRequest) : Prop where
  personal : scope.access = .personal
  tenantId : scope.tenantId = .ok req.owner.tenantId
  userId : scope.userId = req.owner.userId
  money : req.money = "CNY"

section Create

variable {sha256Hex : List UInt8 → String} {tick : WithdrawalTick} {authority : TipAuthority}
  {scope : FinancialScope} {spec : WithdrawalIntent} {req : CreateRequest} {db db' : Database}

theorem checked_of_checkCreate (h : checkCreate scope spec = .ok req) :
    Checked scope req ∧ req.spec = spec := by
  unfold checkCreate at h
  cases hpersonal : scope.requirePersonal with
  | error e => rw [hpersonal] at h; cases h
  | ok u =>
  cases htenant : scope.tenantId with
  | error e => rw [hpersonal, htenant] at h; cases h
  | ok tenantId =>
  cases hmoney : tipCurrency spec.currency with
  | error e => rw [hpersonal, htenant, hmoney] at h; cases h
  | ok money =>
  rw [hpersonal, htenant, hmoney] at h
  change (if _ then _ else _) = _ at h
  split at h
  · cases h
  rename_i hspec
  cases hkind : checkPayload spec with
  | error e => rw [hkind] at h; cases h
  | ok kind =>
  rw [hkind] at h
  cases h
  have haccess : scope.access = .personal := by grind [FinancialScope.requirePersonal, Checked]
  push Not at hspec
  exact ⟨⟨haccess, htenant, rfl, hspec.2.1⟩, rfl⟩

theorem summary_pending {summary : NodeTipSummary} (checked : Checked scope req)
    (h : NodeTip.summary authority.selectAllowed scope req.money db = (.ok summary, db')) :
    summary.pendingAmount = db.toTables.pending req.purse ∧ db' = db := by
  have hcurrency : tipCurrency "CNY" = .ok "CNY" := by decide
  simp only [NodeTip.summary, Tx.inv, checked.tenantId, checked.money, hcurrency] at h
  obtain ⟨_, htenant, _, hmoney, _, -, _, rfl, _, -, rfl, rfl⟩ := h
  cases htenant
  cases hmoney
  rw [Tables.summaryRow_pendingAmount _ checked.personal, checked.userId, CreateRequest.purse,
    checked.money]
  exact ⟨rfl, rfl⟩

theorem updateWhere_convertible {ws : List NodeTipWithdrawal} {row : NodeTipWithdrawal}
    {f : NodeTipWithdrawal → NodeTipWithdrawal} (unique : ((ws ++ [row]).map id).Nodup)
    (status : row.status = .pending) (type : row.withdrawalType = .balance) :
    updateWhere row.convertible f (ws ++ [row]) = ws ++ [f row] := by
  have hothers : updateWhere row.convertible f ws = ws := by
    refine updateWhere_of_forall_eq fun w member hw => ?_
    rw [List.map_append, List.nodup_append] at unique
    exact absurd (of_decide_eq_true hw).2.1
      (unique.2.2 _ (List.mem_map_of_mem member) _ (List.mem_singleton_self _))
  have hself : row.convertible row = true := by simp [convertible, status, type]
  rw [updateWhere, List.map_append, ← updateWhere, hothers]
  simp [hself]

/-- What a new withdrawal does beyond its row: nothing, or a credit of its wallet and its own
completion. -/
theorem payOut_cases {row out : NodeTipWithdrawal} {ws : List NodeTipWithdrawal}
    (inserted : db.nodeTipWithdrawals = ws ++ [row]) (status : row.status = .pending)
    (h : payOut tick row db = (.ok out, db')) :
    (row.withdrawalType ≠ .balance ∧ out = row ∧ db' = db) ∨
    (row.withdrawalType = .balance ∧ ∃ x : BalanceTransaction,
      out = row.convert tick x.id ∧ x.Records row.owner .tipCredit none none row.totalAmount ∧
      db'.toTables = { (db.toTables.creditOrInsert row.owner row.totalAmount).insertTransaction x
        with nodeTipWithdrawals := ws ++ [out] }) := by
  unfold payOut at h
  split at h
  · rename_i htype
    refine .inr ⟨htype, ?_⟩
    simp only [payIntoBalance, Tx.inv, exec_eq_ok] at h
    obtain ⟨⟨wallet, x⟩, db₁, hcredit, _, rfl, pending, hfound, _, _, hwrite,
      rfl, rfl⟩ := h
    obtain ⟨-, hrecords, -, htables⟩ := UserBalance.creditTips_inversion hcredit
    have hrows : db₁.nodeTipWithdrawals = ws ++ [row] := by
      rw [htables]
      exact inserted
    have hunique := db₁.valid.2.2.2.2.2.2.2.2.1
    -- the row found is the row inserted, by its key
    have hpending : pending = row := by
      have hmatch : row.convertible pending = true := List.find?_some hfound
      have hid := (of_decide_eq_true hmatch).2.1
      refine List.inj_on_of_nodup_map hunique (List.mem_of_find?_eq_some hfound) ?_ hid
      rw [hrows]
      exact List.mem_append_right _ (List.mem_singleton_self _)
    subst hpending
    refine ⟨x, rfl, hrecords, ?_⟩
    rw [hrows] at hunique
    rw [hwrite, Tables.updateWithdrawals, hrows, updateWhere_convertible hunique status htype,
      htables]
  · simp_all

theorem createInTx_cases {view : WithdrawalView} (checked : Checked scope req)
    (h : createInTx sha256Hex tick authority scope req db = (.ok view, db')) :
    ∃ row, view = row.view ∧ CreateEffect req db.toTables row db'.toTables := by
  simp only [createInTx, Tx.inv, checkAuthority_eq_ok] at h
  obtain ⟨_, -, _, -, old, hold, h⟩ := h
  cases old with
  | some old =>
    simp only [createReplay, Tx.inv, checkAuthority_eq_ok] at h
    obtain ⟨_, -, _, -, rfl, rfl⟩ := h
    exact ⟨old, rfl, .replayed hold⟩
  | none =>
    simp only [createNew, Tx.inv, checkAuthority_eq_ok, exec_eq_ok] at h
    obtain ⟨summary, _, hsummary, _, -, _, db₁, hinsert, out, db₂, hpay, _, -, _, -, rfl, rfl⟩ := h
    obtain ⟨hamount, rfl⟩ := summary_pending checked hsummary
    refine ⟨out, rfl, ?_⟩
    rcases payOut_cases (by rw [hinsert]; rfl) rfl hpay with
      ⟨htype, rfl, rfl⟩ | ⟨htype, x, rfl, hrecords, htables⟩
    · rw [hinsert]
      refine .external hold rfl ?_ ⟨hamount, by rintro ⟨⟩⟩
      cases hkind : req.kind with
      | alipay => exact hkind
      | balance => exact absurd hkind htype
    · rw [htables, hinsert]
      exact .converted hold rfl htype ⟨hamount, by rintro ⟨⟩⟩ rfl hrecords

theorem create_cases {view : WithdrawalView}
    (h : create sha256Hex tick authority scope spec db = (.ok view, db')) :
    ∃ req row, checkCreate scope spec = .ok req ∧ view = row.view ∧
      CreateEffect req db.toTables row db'.toTables := by
  have hbody := atomically_eq_ok.mp h
  obtain ⟨req, _, hlift, hbody⟩ := Tx.bind_eq_ok.mp hbody
  obtain ⟨hcheck, rfl⟩ := Tx.lift_eq_ok.mp hlift
  obtain ⟨row, hview, heffect⟩ := createInTx_cases (checked_of_checkCreate hcheck).1 hbody
  exact ⟨req, row, hcheck, hview, heffect⟩

end Create

/-- A decision on an `alipay` withdrawal: it was not rejected before, and is otherwise the same
withdrawal. -/
structure Decided (w w' : NodeTipWithdrawal) : Prop where
  live : w.status ≠ .rejected
  type : w.withdrawalType = .alipay
  type_eq : w'.withdrawalType = w.withdrawalType
  id : w'.id = w.id
  key : w'.key = w.key
  purse : w'.purse = w.purse
  amount : w'.totalAmount = w.totalAmount

end NodeTipWithdrawal

def Tables.tipCredits (t : Tables) : List BalanceTransaction :=
  t.balanceTransactions.filter fun x => decide (x.transactionType = .tipCredit)

def Tables.conversions (t : Tables) : List NodeTipWithdrawal :=
  t.nodeTipWithdrawals.filter fun w => decide (w.withdrawalType = .balance)

open NodeTipWithdrawal in
/-- **The changes to tips, withdrawals and tip credits**, one constructor per effect. -/
inductive TipStep (t : Tables) : Tables → Prop where
  | credited (row : NodeTip) : TipStep t (t.insertTip row)
  | external {row : NodeTipWithdrawal} (type : row.withdrawalType = .alipay)
      (opens : Opens t row) : TipStep t (t.insertWithdrawal row)
  | converted {row : NodeTipWithdrawal} {x : BalanceTransaction}
      (type : row.withdrawalType = .balance) (opens : Opens t row)
      (credit : row.balanceTransactionId = some x.id)
      (records : x.Records row.owner .tipCredit none none row.totalAmount) :
      TipStep t
        (((t.insertWithdrawal row).creditOrInsert row.owner row.totalAmount).insertTransaction x)
  | decided {p : NodeTipWithdrawal → Bool} {f : NodeTipWithdrawal → NodeTipWithdrawal}
      (decided : ∀ w ∈ t.nodeTipWithdrawals, p w → w.Decided (f w)) :
      TipStep t (t.updateWithdrawals p f)
  | apart {t' : Tables} (tips : t'.nodeTips = t.nodeTips)
      (withdrawals : t'.nodeTipWithdrawals = t.nodeTipWithdrawals)
      (credits : t'.tipCredits = t.tipCredits) : TipStep t t'

section Steps

variable {tick : WithdrawalTick} {authority : TipAuthority} {scope : FinancialScope}
  {db db' : Database}

theorem TipStep.refl (t : Tables) : TipStep t t := .apart rfl rfl rfl

theorem TipStep.atomically {α : Type} {body : DbTx α} {db : Database}
    (h : ∀ a db', body db = (.ok a, db') → TipStep db.toTables db'.toTables) :
    TipStep db.toTables (Relational.atomically body db).2.toTables :=
  atomically_rel (R := fun before after : Database => TipStep before.toTables after.toTables)
    (.refl _) h

theorem createFromUsageLogInTx_step (id tenantId usageLogId : Uuid) (db : Database) :
    TipStep db.toTables
      (atomically (NodeTip.createFromUsageLogInTx id tenantId usageLogId) db).2.toTables := by
  refine .atomically fun out db' h => ?_
  rcases NodeTip.createFromUsageLogInTx_cases h with hsame | ⟨row, hrow⟩
  · exact .apart (by rw [hsame]) (by rw [hsame]) (by rw [hsame])
  · rw [hrow]
    exact .credited row

theorem createFromUsageLog_step (id tenantId usageLogId : Uuid) (db : Database) :
    TipStep db.toTables (NodeTip.createFromUsageLog id tenantId usageLogId db).2.toTables := by
  unfold NodeTip.createFromUsageLog
  split
  · exact createFromUsageLogInTx_step id tenantId usageLogId db
  · exact .refl _

namespace NodeTipWithdrawal

theorem CreateEffect.step {req : CreateRequest} {row : NodeTipWithdrawal} {t t' : Tables}
    (h : CreateEffect req t row t') : TipStep t t' := by
  cases h with
  | replayed found => exact .refl t
  | external fresh key type opens => exact .external type opens
  | converted fresh key type opens credit records => exact .converted type opens credit records

theorem create_step (sha256Hex : List UInt8 → String) (tick : WithdrawalTick)
    (authority : TipAuthority) (scope : FinancialScope) (spec : WithdrawalIntent) (db : Database) :
    TipStep db.toTables (create sha256Hex tick authority scope spec db).2.toTables := by
  refine .atomically fun view db' h => ?_
  obtain ⟨_, _, _, _, heffect⟩ := create_cases (atomically_eq_ok.mpr h)
  exact heffect.step

theorem locked_inversion {id : Uuid} {before : NodeTipWithdrawal}
    (h : locked authority scope id db = (.ok before, db')) :
    before ∈ db.nodeTipWithdrawals ∧ db' = db := by
  simp only [locked, Tx.inv] at h
  obtain ⟨_, -, _, rfl, hfound, rfl⟩ := h
  exact ⟨List.mem_of_find?_eq_some hfound, rfl⟩

theorem decideLocked_step {before : NodeTipWithdrawal} {view : WithdrawalView}
    {f : NodeTipWithdrawal → NodeTipWithdrawal} (member : before ∈ db.nodeTipWithdrawals)
    (decided : before.Decided (f before))
    (h : decideLocked authority before f db = (.ok view, db')) :
    TipStep db.toTables db'.toTables := by
  simp only [decideLocked, Tx.inv, exec_eq_ok, checkAuthority_eq_ok] at h
  obtain ⟨_, -, _, -, _, _, hwrite, _, -, _, -, -, rfl⟩ := h
  rw [hwrite]
  refine .decided fun w hw hmatch => ?_
  -- the update reaches the locked row only
  have hid : w.id = before.id := (of_decide_eq_true (Bool.and_eq_true_iff.mp hmatch).1).2.1
  obtain rfl := List.inj_on_of_nodup_map db.valid.2.2.2.2.2.2.2.2.1 hw member hid
  exact decided

theorem review_step (tick : WithdrawalTick) (authority : TipAuthority) (scope : FinancialScope)
    (command : ReviewWithdrawal) (db : Database) :
    TipStep db.toTables (review tick authority scope command db).2.toTables := by
  refine .atomically fun view db' h => ?_
  simp only [Tx.inv, checkAuthority_eq_ok] at h
  obtain ⟨_, -, why, -, _, -, _, -, before, _, hlocked, _, hstate, h⟩ := h
  obtain ⟨member, rfl⟩ := locked_inversion hlocked
  push Not at hstate
  obtain ⟨-, hpending, htype⟩ := hstate
  exact decideLocked_step member
    ⟨by rw [hpending]; nofun, htype, rfl, rfl, rfl, rfl, rfl⟩ h

theorem completeExternal_step (tick : WithdrawalTick) (authority : TipAuthority)
    (scope : FinancialScope) (command : CompleteWithdrawal) (db : Database) :
    TipStep db.toTables (completeExternal tick authority scope command db).2.toTables := by
  refine .atomically fun view db' h => ?_
  simp only [Tx.inv, checkAuthority_eq_ok] at h
  obtain ⟨_, -, why, -, reference, -, _, -, _, -,
    before, _, hlocked, h⟩ := h
  obtain ⟨member, rfl⟩ := locked_inversion hlocked
  split at h
  · cases h
    exact .refl _
  simp only [completeApproved, Tx.inv] at h
  obtain ⟨_, hstate, h⟩ := h
  push Not at hstate
  obtain ⟨-, happroved, htype⟩ := hstate
  exact decideLocked_step member
    ⟨by rw [happroved]; nofun, htype, rfl, rfl, rfl, rfl, rfl⟩ h

end NodeTipWithdrawal

end Steps

end KeyCompute
