import KeyCompute.Tips.Withdrawal

/-!
# The book of claims

`TipBook` is the database together with the **claims**: which tips a withdrawal stands for.  When a
call has added a withdrawal, `TipBook.commit` lets it claim every tip of its purse that no other
withdrawal holds which was not rejected.  The code computes the amount of a withdrawal without the
claims; `TipBook.Sound.pending_eq` is the bridge.

A run interleaves the calls on tips and withdrawals, each of which may lose its answer, with any
wallet call except `credit_tips`, and with writes to unrelated tables.
-/

namespace KeyCompute

open Relational Accounting Tables Function List

/-! ## Claims -/

section Funds

variable (t : Tables) (k : Purse)

def Tables.tipsIn : Finset NodeTip := (t.nodeTips.filter fun x => x.purse = k).toFinset

def Tables.liveIds : Finset Uuid :=
  ((t.nodeTipWithdrawals.filter (liveIn k)).map NodeTipWithdrawal.id).toFinset

variable {t k}

theorem Tables.mem_tipsIn {x : NodeTip} : x ∈ t.tipsIn k ↔ x ∈ t.nodeTips ∧ x.purse = k := by
  simp [tipsIn]

theorem Tables.mem_liveIds {id : Uuid} :
    id ∈ t.liveIds k ↔
      ∃ w ∈ t.nodeTipWithdrawals, w.purse = k ∧ w.status ≠ .rejected ∧ w.id = id := by
  simp [liveIds, liveIn, and_assoc]

end Funds

structure TipBook where
  db : Database
  claims : Uuid → Finset NodeTip

namespace TipBook

def initial (db : Database) : TipBook := ⟨db, fun _ => ∅⟩

/-- The tips of a purse that no withdrawal holds which was not rejected. -/
def openTips (s : TipBook) (k : Purse) : Finset NodeTip :=
  unclaimed (s.db.tipsIn k) (s.db.liveIds k) s.claims

/-- The book after a change of the database: a new withdrawal claims the open tips of its
purse. -/
def commit (s : TipBook) (db' : Database) : TipBook where
  db := db'
  claims :=
    match db'.nodeTipWithdrawals.drop s.db.nodeTipWithdrawals.length with
    | [] => s.claims
    | w :: _ => update s.claims w.id (s.openTips w.purse)

/-- What a withdrawal paid into a wallet, and what a transaction did. -/
abbrev Receipt := Option Uuid × Principal × ℤ

def conversionReceipt (w : NodeTipWithdrawal) : Receipt :=
  (w.balanceTransactionId, w.owner, w.totalAmount)

def creditReceipt (x : BalanceTransaction) : Receipt := (some x.id, x.principal, x.amount)

structure Sound (s : TipBook) : Prop where
  held : ∀ k, Held (s.db.tipsIn k) (s.db.liveIds k) s.claims
  amount : ∀ w ∈ s.db.nodeTipWithdrawals, w.totalAmount = ∑ x ∈ s.claims w.id, x.tipAmount
  purse : ∀ w ∈ s.db.nodeTipWithdrawals, s.claims w.id ⊆ s.db.tipsIn w.purse
  credits : s.db.tipCredits.map creditReceipt = s.db.conversions.map conversionReceipt

variable {s : TipBook} {db' : Database}

theorem commit_same (h : db'.nodeTipWithdrawals.length = s.db.nodeTipWithdrawals.length) :
    s.commit db' = ⟨db', s.claims⟩ := by
  rw [commit, ← h, drop_length]

theorem commit_opened {w : NodeTipWithdrawal}
    (h : db'.nodeTipWithdrawals = s.db.nodeTipWithdrawals ++ [w]) :
    s.commit db' = ⟨db', update s.claims w.id (s.openTips w.purse)⟩ := by
  rw [commit, h, drop_left]

theorem total_tips (db : Database) (k : Purse) :
    totalWhere (fun x => x.purse = k) NodeTip.tipAmount db.nodeTips =
      ∑ x ∈ db.tipsIn k, x.tipAmount := by
  have hnodup : (db.nodeTips.map fun x => x).Nodup := by
    rw [map_id']
    exact Nodup.of_map _ db.valid.2.2.2.2.2.2.2.1.1
  rw [totalWhere_eq_sum_keys hnodup (f := NodeTip.tipAmount) fun _ _ _ => rfl, map_id']
  rfl

theorem Sound.total_live (h : s.Sound) (k : Purse) :
    totalWhere (liveIn k) NodeTipWithdrawal.totalAmount s.db.nodeTipWithdrawals =
      ∑ id ∈ s.db.liveIds k, ∑ x ∈ s.claims id, x.tipAmount :=
  totalWhere_eq_sum_keys s.db.valid.2.2.2.2.2.2.2.2.1 fun w member _ => h.amount w member

theorem Sound.pending_eq (h : s.Sound) (k : Purse) :
    s.db.toTables.pending k = ∑ x ∈ s.openTips k, x.tipAmount := by
  rw [pending, total_tips, h.total_live, openTips, (h.held k).value_unclaimed]

/-! ## Steps keep the book sound -/

/-- The row stands for an older row of the same withdrawal. -/
structure Continues (w w' : NodeTipWithdrawal) : Prop where
  id : w'.id = w.id
  purse : w'.purse = w.purse
  amount : w'.totalAmount = w.totalAmount
  live : w'.status ≠ .rejected → w.status ≠ .rejected

theorem Continues.refl (w : NodeTipWithdrawal) : Continues w w := ⟨rfl, rfl, rfl, fun h => h⟩

/-- **The frame rule**: tips may be added and withdrawals may go on, while the claims stay. -/
theorem Sound.frame (h : s.Sound)
    (length : db'.nodeTipWithdrawals.length = s.db.nodeTipWithdrawals.length)
    (tips : ∀ x ∈ s.db.nodeTips, x ∈ db'.nodeTips)
    (rows : ∀ w' ∈ db'.nodeTipWithdrawals, ∃ w ∈ s.db.nodeTipWithdrawals, Continues w w')
    (credits : db'.tipCredits.map creditReceipt = db'.conversions.map conversionReceipt) :
    (s.commit db').Sound := by
  rw [commit_same length]
  have htips (k : Purse) : s.db.tipsIn k ⊆ db'.tipsIn k := by
    intro x hx
    rw [mem_tipsIn] at hx ⊢
    exact ⟨tips x hx.1, hx.2⟩
  constructor
  · intro k
    refine (h.held k).mono (htips k) fun id hid => ?_
    obtain ⟨w', member, hpurse, hlive, rfl⟩ := mem_liveIds.mp hid
    obtain ⟨w, hw, hsame⟩ := rows w' member
    exact mem_liveIds.mpr
      ⟨w, hw, hsame.purse ▸ hpurse, hsame.live hlive, hsame.id.symm⟩
  · intro w' member
    obtain ⟨w, hw, hsame⟩ := rows w' member
    change _ = ∑ x ∈ s.claims w'.id, _
    rw [hsame.amount, hsame.id]
    exact h.amount w hw
  · intro w' member
    obtain ⟨w, hw, hsame⟩ := rows w' member
    change s.claims w'.id ⊆ db'.tipsIn w'.purse
    rw [hsame.id, hsame.purse]
    exact (h.purse w hw).trans (htips _)
  · exact credits

theorem liveIds_opened {row : NodeTipWithdrawal} (live : row.status ≠ .rejected)
    (rows : db'.nodeTipWithdrawals = s.db.nodeTipWithdrawals ++ [row]) (k : Purse) :
    db'.liveIds k =
      if row.purse = k then insert row.id (s.db.liveIds k) else s.db.liveIds k := by
  rw [liveIds, rows, filter_append, map_append, toFinset_append]
  split
  · rename_i hpurse
    have hrow : liveIn k row = true := by simp [liveIn, hpurse, live]
    rw [filter_cons_of_pos hrow, Finset.union_comm]
    rfl
  · rename_i hpurse
    have hrow : ¬ liveIn k row = true := by simp [liveIn, hpurse]
    rw [filter_cons_of_neg hrow]
    simp [liveIds]

/-- **A new withdrawal claims the open tips of its purse**, and is worth them. -/
theorem Sound.opened {row : NodeTipWithdrawal} (h : s.Sound)
    (rows : db'.nodeTipWithdrawals = s.db.nodeTipWithdrawals ++ [row])
    (tips : db'.nodeTips = s.db.nodeTips) (opens : NodeTipWithdrawal.Opens s.db.toTables row)
    (credits : db'.tipCredits.map creditReceipt = db'.conversions.map conversionReceipt) :
    (s.commit db').Sound := by
  rw [commit_opened rows]
  have hnew : ∀ w ∈ s.db.nodeTipWithdrawals, w.id ≠ row.id := by
    intro w member
    have hnodup := db'.valid.2.2.2.2.2.2.2.2.1
    rw [rows, map_append, nodup_append] at hnodup
    exact hnodup.2.2 _ (mem_map_of_mem member) _ (mem_singleton_self _)
  have hfresh (k : Purse) : row.id ∉ s.db.liveIds k := by
    intro hlive
    obtain ⟨w, member, -, -, hid⟩ := mem_liveIds.mp hlive
    exact hnew w member hid
  have htips (k : Purse) : db'.tipsIn k = s.db.tipsIn k := by
    rw [tipsIn, tips]
    rfl
  -- the claim of an older withdrawal is what it was
  have hold : ∀ w ∈ s.db.nodeTipWithdrawals,
      update s.claims row.id (s.openTips row.purse) w.id = s.claims w.id :=
    fun w member => update_of_ne (hnew w member) _ _
  constructor
  · intro k
    change Held (db'.tipsIn k) (db'.liveIds k) _
    rw [htips, liveIds_opened opens.live rows]
    split
    · subst k
      exact (h.held _).sweep (hfresh _)
    · refine (h.held k).congr fun id hid => ?_
      obtain ⟨w, member, -, -, rfl⟩ := mem_liveIds.mp hid
      exact hold w member
  · intro w member
    rw [show _ = _ from rows] at member
    rcases mem_append.mp member with hmember | hrow
    · change w.totalAmount = ∑ x ∈ update s.claims row.id (s.openTips row.purse) w.id, _
      rw [hold w hmember]
      exact h.amount w hmember
    · obtain rfl := mem_singleton.mp hrow
      change w.totalAmount = ∑ x ∈ update s.claims w.id (s.openTips w.purse) w.id, _
      rw [update_self, opens.amount, h.pending_eq]
  · intro w member
    rw [show _ = _ from rows] at member
    change update s.claims row.id (s.openTips row.purse) w.id ⊆ db'.tipsIn w.purse
    rw [htips]
    rcases mem_append.mp member with hmember | hrow
    · rw [hold w hmember]
      exact h.purse w hmember
    · obtain rfl := mem_singleton.mp hrow
      rw [update_self]
      exact unclaimed_subset
  · exact credits

theorem Sound.step (h : s.Sound) (step : TipStep s.db.toTables db'.toTables) :
    (s.commit db').Sound := by
  have hcredits := h.credits
  generalize htables : db'.toTables = t' at step
  cases step with
  | credited row =>
    refine h.frame (by rw [htables]; rfl) ?_ ?_ (by rw [htables]; exact hcredits)
    · intro x hx
      rw [htables]
      exact mem_append_left _ hx
    · intro w hw
      rw [htables] at hw
      exact ⟨w, hw, .refl w⟩
  | @external row type opens =>
    have hrows : db'.nodeTipWithdrawals = s.db.nodeTipWithdrawals ++ [row] := by rw [htables]; rfl
    refine h.opened hrows (by rw [htables]; rfl) opens ?_
    have hconversions : db'.conversions = s.db.conversions := by
      rw [conversions, hrows]
      simp [conversions, type]
    rw [hconversions, ← hcredits, htables]
    rfl
  | @converted row x type opens credit records =>
    have hrows : db'.nodeTipWithdrawals = s.db.nodeTipWithdrawals ++ [row] := by rw [htables]; rfl
    have hjournal : db'.balanceTransactions = s.db.balanceTransactions ++ [x] := by
      rw [htables]; rfl
    refine h.opened hrows (by rw [htables]; rfl) opens ?_
    have hconversions : db'.conversions = s.db.conversions ++ [row] := by
      rw [conversions, hrows]
      simp [conversions, type]
    have hposted : db'.tipCredits = s.db.tipCredits ++ [x] := by
      rw [tipCredits, hjournal]
      simp [tipCredits, records.type]
    rw [hconversions, hposted, map_append, map_append, hcredits]
    congr 1
    simp [creditReceipt, conversionReceipt, credit, records.principal, records.amount]
  | @decided p f decided =>
    have hrows : db'.nodeTipWithdrawals = updateWhere p f s.db.nodeTipWithdrawals := by
      rw [htables]; rfl
    -- only `alipay` rows are decided on
    have hconversions : db'.conversions = s.db.conversions := by
      rw [conversions, hrows]
      refine filter_updateWhere_of_not fun w hw hp => ?_
      have hd := decided w hw hp
      simp [hd.type_eq, hd.type]
    refine h.frame (by rw [hrows, updateWhere, length_map]) ?_ ?_ ?_
    · intro x hx
      rw [htables]
      exact hx
    · intro w' hw'
      rw [hrows] at hw'
      obtain ⟨w, hw, rfl⟩ := mem_updateWhere.mp hw'
      refine ⟨w, hw, ?_⟩
      split
      · have hd := decided w hw ‹_›
        exact ⟨hd.id, hd.purse, hd.amount, fun _ => hd.live⟩
      · exact .refl w
    · rw [hconversions, ← hcredits, htables]
      rfl
  | apart tips withdrawals credits =>
    refine h.frame (by rw [htables, withdrawals]) ?_ ?_ ?_
    · intro x hx
      rw [htables, tips]
      exact hx
    · intro w hw
      rw [htables, withdrawals] at hw
      exact ⟨w, hw, .refl w⟩
    · rw [htables, credits, conversions, withdrawals]
      exact hcredits

/-! ## Runs -/

inductive Call where
  | createFromUsageLog (id tenantId usageLogId : Uuid)
  | creditTransaction (id tenantId usageLogId : Uuid)
  | create (tick : NodeTipWithdrawal.WithdrawalTick) (authority : TipAuthority)
      (scope : FinancialScope) (spec : WithdrawalIntent)
  | review (tick : NodeTipWithdrawal.WithdrawalTick) (authority : TipAuthority)
      (scope : FinancialScope) (command : ReviewWithdrawal)
  | completeExternal (tick : NodeTipWithdrawal.WithdrawalTick) (authority : TipAuthority)
      (scope : FinancialScope) (command : CompleteWithdrawal)
  | wallet (call : WalletCall)
  | elsewhere (tables : Tables)

structure Event where
  call : Call
  ending : Ending

/-- Wallet calls write only wallets, and credit no tips. -/
def Event.Allowed (e : Event) : Prop :=
  ∀ call, e.call = .wallet call →
    ¬ call.Acts .outside ∧ ∀ orderId, ¬ call.Acts (.credit .tipCredit orderId)

end TipBook

/-- The tables beside wallets and tips become those of `tables`. -/
def Tables.replaceBesideTips (tables t : Tables) : Tables :=
  { tables.replaceElsewhere t with
    nodeTips := t.nodeTips
    nodeTipWithdrawals := t.nodeTipWithdrawals }

theorem WalletSteps.tipCredits_eq {acts : Act → Prop} {db db' : Database}
    (h : WalletSteps acts db db') (hacts : ∀ orderId, ¬ acts (.credit .tipCredit orderId)) :
    db'.tipCredits = db.tipCredits := by
  refine h.filter_transactions fun act x hact hposts => ?_
  rw [decide_eq_false_iff_not]
  intro htype
  cases act with
  | credit type orderId =>
    obtain rfl := hposts.2.1.symm.trans htype
    exact hacts orderId hact
  | charge usageLogId => rw [hposts.1] at htype; cases htype
  | lock => rcases hposts with hlock | hlock <;> rw [hlock] at htype <;> cases htype
  | _ => exact hposts

namespace TipBook

section Run

variable (sha256Hex : List UInt8 → String)

def Call.step : Call → Database → Database
  | createFromUsageLog id tenantId usageLogId, db =>
    (NodeTip.createFromUsageLog id tenantId usageLogId db).2
  | creditTransaction id tenantId usageLogId, db =>
    (atomically (NodeTip.createFromUsageLogInTx id tenantId usageLogId) db).2
  | create tick authority scope spec, db =>
    (NodeTipWithdrawal.create sha256Hex tick authority scope spec db).2
  | review tick authority scope command, db =>
    (NodeTipWithdrawal.review tick authority scope command db).2
  | completeExternal tick authority scope command, db =>
    (NodeTipWithdrawal.completeExternal tick authority scope command db).2
  | wallet call, db => call.step db
  | elsewhere tables, db => (atomically (exec tables.replaceBesideTips) db).2

def Event.step (e : Event) (s : TipBook) : TipBook :=
  s.commit (e.ending.state s.db (e.call.step sha256Hex s.db))

def run (events : List Event) (s : TipBook) : TipBook := runAll (Event.step sha256Hex) events s

theorem replaceBesideTips_step (tables : Tables) (db : Database) :
    TipStep db.toTables (atomically (exec tables.replaceBesideTips) db).2.toTables := by
  refine .atomically fun _ db' h => ?_
  rw [exec_eq_ok.mp h]
  exact .apart rfl rfl rfl

theorem Event.tipStep {e : Event} (allowed : e.Allowed) (s : TipBook) :
    TipStep s.db.toTables (e.step sha256Hex s).db.toTables := by
  refine e.ending.rel (R := fun before after : Database =>
    TipStep before.toTables after.toTables) (.refl _) ?_
  cases hcall : e.call with
  | createFromUsageLog id tenantId usageLogId =>
    exact createFromUsageLog_step id tenantId usageLogId s.db
  | creditTransaction id tenantId usageLogId =>
    exact createFromUsageLogInTx_step id tenantId usageLogId s.db
  | create tick authority scope spec =>
    exact NodeTipWithdrawal.create_step sha256Hex tick authority scope spec s.db
  | review tick authority scope command =>
    exact NodeTipWithdrawal.review_step tick authority scope command s.db
  | completeExternal tick authority scope command =>
    exact NodeTipWithdrawal.completeExternal_step tick authority scope command s.db
  | wallet call =>
    obtain ⟨houtside, hcredit⟩ := allowed call hcall
    have hsteps := call.steps s.db
    have hsame := hsteps.sameElsewhere houtside
    exact .apart hsame.nodeTips hsame.nodeTipWithdrawals (hsteps.tipCredits_eq hcredit)
  | elsewhere tables => exact replaceBesideTips_step tables s.db

variable {sha256Hex} {events : List Event} {s : TipBook}

theorem Sound.run (h : s.Sound) (allowed : ∀ e ∈ events, e.Allowed) :
    (TipBook.run sha256Hex events s).Sound :=
  runAll_invariant_of (fun e s (hallowed : e.Allowed) (hs : s.Sound) =>
    hs.step (Event.tipStep sha256Hex hallowed s)) events s allowed h

/-! ### Repeated requests -/

variable {w : NodeTipWithdrawal}

theorem kept_of_step {t t' : Tables} (step : TipStep t t') (member : w ∈ t.nodeTipWithdrawals) :
    ∃ w' ∈ t'.nodeTipWithdrawals, w'.id = w.id ∧ w'.key = w.key := by
  cases step with
  | credited row => exact ⟨w, member, rfl, rfl⟩
  | external | converted => exact ⟨w, mem_append_left _ member, rfl, rfl⟩
  | @decided p f decided =>
    refine ⟨if p w then f w else w, mem_updateWhere.mpr ⟨w, member, rfl⟩, ?_⟩
    split
    · exact ⟨(decided w member ‹_›).id, (decided w member ‹_›).key⟩
    · exact ⟨rfl, rfl⟩
  | apart tips withdrawals credits => exact ⟨w, withdrawals ▸ member, rfl, rfl⟩

theorem run_kept (allowed : ∀ e ∈ events, e.Allowed) {id : Uuid} {key : Uuid × Uuid × Uuid}
    (h : ∃ w ∈ s.db.nodeTipWithdrawals, w.id = id ∧ w.key = key) :
    ∃ w ∈ (run sha256Hex events s).db.nodeTipWithdrawals, w.id = id ∧ w.key = key := by
  refine runAll_invariant_of (I := fun s : TipBook =>
    ∃ w ∈ s.db.nodeTipWithdrawals, w.id = id ∧ w.key = key)
    (fun e s (hallowed : e.Allowed) hs => ?_) events s allowed h
  obtain ⟨w, member, rfl, rfl⟩ := hs
  exact kept_of_step (Event.tipStep sha256Hex hallowed s) member

open NodeTipWithdrawal in
theorem create_row {tick : WithdrawalTick} {authority : TipAuthority} {scope : FinancialScope}
    {spec : WithdrawalIntent} {view : WithdrawalView} {db db' : Database} {tenantId : Uuid}
    (tenant : scope.tenantId = .ok tenantId)
    (h : create sha256Hex tick authority scope spec db = (.ok view, db')) :
    ∃ w ∈ db'.nodeTipWithdrawals,
      w.id = view.id ∧ w.key = (tenantId, scope.userId, spec.requestId) := by
  obtain ⟨req, row, hcheck, rfl, heffect⟩ := create_cases h
  obtain ⟨hchecked, rfl⟩ := checked_of_checkCreate hcheck
  have hkey : req.key = (tenantId, scope.userId, req.spec.requestId) := by
    obtain rfl := Except.ok.inj (tenant.symm.trans hchecked.tenantId)
    rw [hchecked.userId]
    rfl
  rw [← hkey]
  generalize db'.toTables = t' at heffect
  cases heffect with
  | replayed found => exact ⟨row, mem_of_lookup found, rfl, key_of_lookup found⟩
  | external fresh key type opens | converted fresh key type opens credit records =>
    exact ⟨row, mem_append_right _ (mem_singleton_self _), rfl, key⟩

open NodeTipWithdrawal in
theorem create_repeated {tick : WithdrawalTick} {authority : TipAuthority} {scope : FinancialScope}
    {spec : WithdrawalIntent} {db : Database} {tenantId : Uuid}
    (tenant : scope.tenantId = .ok tenantId) (member : w ∈ db.nodeTipWithdrawals)
    (key : w.key = (tenantId, scope.userId, spec.requestId)) :
    (create sha256Hex tick authority scope spec db).2 = db ∧
      ∀ view, (create sha256Hex tick authority scope spec db).1 = .ok view → view = w.view := by
  rcases hrun : create sha256Hex tick authority scope spec db with ⟨e | view, db'⟩
  · refine ⟨atomically_error_state hrun, ?_⟩
    intro view h
    cases h
  obtain ⟨req, row, hcheck, rfl, heffect⟩ := create_cases hrun
  obtain ⟨hchecked, rfl⟩ := checked_of_checkCreate hcheck
  have hkey : w.key = req.key := by
    obtain rfl := Except.ok.inj (tenant.symm.trans hchecked.tenantId)
    rw [key, hchecked.userId]
    rfl
  have hfound : db.withdrawalOfRequest? req.key = some w :=
    (lookup_eq_some db.valid.2.2.2.2.2.2.2.2.2.1).mpr ⟨member, hkey⟩
  generalize htables : db'.toTables = t' at heffect
  cases heffect with
  | replayed found =>
    obtain rfl := Option.some.inj (hfound.symm.trans found)
    refine ⟨Database.eq_of_tables htables, ?_⟩
    rintro view ⟨⟩
    rfl
  | external fresh key type opens => rw [hfound] at fresh; cases fresh
  | converted fresh key type opens credit records => rw [hfound] at fresh; cases fresh

theorem Sound.initial {db : Database} (withdrawals : db.nodeTipWithdrawals = [])
    (credits : db.tipCredits = []) : (TipBook.initial db).Sound := by
  have hlive (k : Purse) : db.liveIds k = ∅ := by
    rw [liveIds, withdrawals]
    rfl
  constructor
  · intro k
    change Held (db.tipsIn k) (db.liveIds k) _
    rw [hlive]
    exact .empty
  · intro w member
    exact absurd (withdrawals ▸ member : w ∈ []) not_mem_nil
  · intro w member
    exact absurd (withdrawals ▸ member : w ∈ []) not_mem_nil
  · change db.tipCredits.map _ = db.conversions.map _
    rw [credits, conversions, withdrawals]
    rfl

theorem Sound.covered (h : s.Sound) (k : Purse) :
    totalWhere (liveIn k) NodeTipWithdrawal.totalAmount s.db.nodeTipWithdrawals ≤
      totalWhere (fun x => x.purse = k) NodeTip.tipAmount s.db.nodeTips := by
  rw [h.total_live, total_tips]
  refine (h.held k).sum_claims_le fun x hx => ?_
  exact (s.db.valid.2.2.2.2.2.2.2.1.2.2 x (mem_tipsIn.mp hx).1).1.1.le

/-- A tip that two live withdrawals claim makes them one: in one purse by the fund, and across
purses because the tip is in only one. -/
theorem Sound.unshared (h : s.Sound) {w w' : NodeTipWithdrawal}
    (member : w ∈ s.db.nodeTipWithdrawals) (member' : w' ∈ s.db.nodeTipWithdrawals)
    (live : w.status ≠ .rejected) (live' : w'.status ≠ .rejected) {x : NodeTip}
    (hx : x ∈ s.claims w.id) (hx' : x ∈ s.claims w'.id) : w = w' := by
  have hpurse : w'.purse = w.purse :=
    (mem_tipsIn.mp (h.purse w' member' hx')).2.symm.trans
      (mem_tipsIn.mp (h.purse w member hx)).2
  have hid : w.id = w'.id := by
    by_contra hne
    have hdisjoint := (h.held w.purse).disjoint
      (mem_liveIds.mpr ⟨w, member, rfl, live, rfl⟩)
      (mem_liveIds.mpr ⟨w', member', hpurse, live', rfl⟩) hne
    exact Finset.disjoint_left.mp hdisjoint hx hx'
  exact inj_on_of_nodup_map s.db.valid.2.2.2.2.2.2.2.2.1 member member' hid

theorem Sound.credit_of_conversion (h : s.Sound) (member : w ∈ s.db.nodeTipWithdrawals)
    (type : w.withdrawalType = .balance) :
    ∃ x ∈ s.db.tipCredits, w.balanceTransactionId = some x.id ∧ x.principal = w.owner ∧
      x.amount = w.totalAmount ∧
      ∀ y ∈ s.db.tipCredits, w.balanceTransactionId = some y.id → y = x := by
  have hreceipt : conversionReceipt w ∈ s.db.tipCredits.map creditReceipt := by
    rw [h.credits]
    exact mem_map_of_mem (mem_filter.mpr ⟨member, by simp [type]⟩)
  obtain ⟨x, hx, hsame⟩ := mem_map.mp hreceipt
  obtain ⟨hid, hprincipal, hamount⟩ : some x.id = w.balanceTransactionId ∧
      x.principal = w.owner ∧ x.amount = w.totalAmount := by
    simpa [creditReceipt, conversionReceipt] using hsame
  refine ⟨x, hx, hid.symm, hprincipal, hamount, fun y hy hyid => ?_⟩
  refine inj_on_of_nodup_map s.db.valid.2.2.2.1.1 (mem_of_mem_filter hy)
    (mem_of_mem_filter hx) ?_
  exact Option.some.inj (hyid.symm.trans hid.symm)

variable (sha256Hex s)

/-- **The tip ledger is safe.**  Withdrawals that were not rejected are covered by the tips of
their purse; a withdrawal is worth the tips it claimed, and shares none of them with another
one that was not rejected; the tip credits in the journal are, in order, one for each
withdrawal paid into a wallet, with its amount; a request that has its withdrawal creates
nothing more. -/
structure Safe : Prop where
  covered : ∀ k : Purse,
    totalWhere (Tables.liveIn k) NodeTipWithdrawal.totalAmount s.db.nodeTipWithdrawals ≤
      totalWhere (fun x => x.purse = k) NodeTip.tipAmount s.db.nodeTips
  claimed : ∀ w ∈ s.db.nodeTipWithdrawals, w.totalAmount = ∑ x ∈ s.claims w.id, x.tipAmount ∧
    ∀ x ∈ s.claims w.id, x ∈ s.db.nodeTips ∧ x.purse = w.purse
  unshared : ∀ w ∈ s.db.nodeTipWithdrawals, ∀ w' ∈ s.db.nodeTipWithdrawals,
    w.status ≠ .rejected → w'.status ≠ .rejected →
    ∀ x, x ∈ s.claims w.id → x ∈ s.claims w'.id → w = w'
  credited : ∀ w ∈ s.db.nodeTipWithdrawals, w.withdrawalType = .balance →
    ∃ x ∈ s.db.tipCredits, w.balanceTransactionId = some x.id ∧ x.principal = w.owner ∧
      x.amount = w.totalAmount ∧
      ∀ y ∈ s.db.tipCredits, w.balanceTransactionId = some y.id → y = x
  credits : s.db.tipCredits.map creditReceipt = s.db.conversions.map conversionReceipt
  repeated : ∀ tick authority scope spec view,
    (NodeTipWithdrawal.create sha256Hex tick authority scope spec s.db).1 = .ok view →
    ∀ later : List Event, (∀ e ∈ later, e.Allowed) →
    ∀ s', run sha256Hex (⟨.create tick authority scope spec, .answered⟩ :: later) s = s' →
    ∀ tick' authority' scope' spec', scope'.userId = scope.userId →
      scope'.scopeTenantId = scope.scopeTenantId → spec'.requestId = spec.requestId →
      (NodeTipWithdrawal.create sha256Hex tick' authority' scope' spec' s'.db).2 = s'.db ∧
        ∀ view', (NodeTipWithdrawal.create sha256Hex tick' authority' scope' spec' s'.db).1 =
          .ok view' → view'.id = view.id

/-- **Tip ledger safety**, after any sequence of calls. -/
theorem tips_safe (sha256Hex : List UInt8 → String) (db : Database)
    (withdrawals : db.nodeTipWithdrawals = []) (credits : db.tipCredits = [])
    (events : List Event) (allowed : ∀ e ∈ events, e.Allowed) :
    Safe sha256Hex (run sha256Hex events (TipBook.initial db)) := by
  have hsound : (run sha256Hex events (TipBook.initial db)).Sound :=
    (Sound.initial withdrawals credits).run allowed
  generalize run sha256Hex events (TipBook.initial db) = s at hsound
  refine ⟨hsound.covered, ?_, ?_, ?_, hsound.credits, ?_⟩
  · intro w member
    refine ⟨hsound.amount w member, fun x hx => ?_⟩
    exact Tables.mem_tipsIn.mp (hsound.purse w member hx)
  · intro w member w' member' live live' x hx hx'
    exact hsound.unshared member member' live live' hx hx'
  · intro w member type
    exact hsound.credit_of_conversion member type
  · rintro tick authority scope spec view hview later hlater _ rfl tick' authority' scope' spec'
      huser htenant hrequest
    have hrun : NodeTipWithdrawal.create sha256Hex tick authority scope spec s.db =
        (.ok view, (NodeTipWithdrawal.create sha256Hex tick authority scope spec s.db).2) :=
      Prod.ext hview rfl
    obtain ⟨req, -, hcheck, -, -⟩ := NodeTipWithdrawal.create_cases hrun
    have htenantId := (NodeTipWithdrawal.checked_of_checkCreate hcheck).1.tenantId
    have hkept : ∃ w ∈ (run sha256Hex (⟨.create tick authority scope spec, .answered⟩ :: later)
        s).db.nodeTipWithdrawals, w.id = view.id ∧
          w.key = (req.owner.tenantId, scope.userId, spec.requestId) :=
      run_kept hlater (create_row htenantId hrun)
    obtain ⟨w, member, hid, hkey⟩ := hkept
    have htenantId' : scope'.tenantId = .ok req.owner.tenantId := by
      rw [← htenantId, FinancialScope.tenantId, FinancialScope.tenantId, htenant]
    rw [← huser, ← hrequest] at hkey
    refine ⟨(create_repeated htenantId' member hkey).1, fun view' hview' => ?_⟩
    rw [(create_repeated htenantId' member hkey).2 view' hview']
    exact hid

/-- A tenant in which the node of user 20 served a request of user 10. -/
def servedRequest : Database where
  reference :=
    { tenants := [⟨1, true⟩], users := [⟨10, true⟩, ⟨20, true⟩],
      memberships := [⟨1, 10, .active⟩, ⟨1, 20, .active⟩],
      usageLogs := [⟨50, 100, 1, 10, 20, "CNY"⟩], nodes := [⟨7, 1, 20⟩],
      nodeTasks := [⟨100, 1, 10, true, some 7⟩], nodeTipRatio := none }
  userBalances := []
  balanceReservations := []
  balanceTransactions := []
  adminBalanceOperations := []
  paymentOrders := []
  paymentNotifications := []
  nodeTips := []
  nodeTipWithdrawals := []
  valid := by decide

def granted : TipAuthority := ⟨⟨none, none, none, none⟩, true, true⟩

def sampleIntent (requestId : Uuid) (type : String) (payload : Option String) :
    WithdrawalIntent where
  requestId := requestId
  withdrawalType := type
  currency := "CNY"
  recipientFingerprint := String.ofList (replicate 64 'a')
  encryptedAlipayAccount := payload
  encryptedRealName := payload

/-- A tip, a withdrawal of it that is rejected, and a second one into the wallet, sent twice. -/
def sampleWithdrawals : List Event :=
  [⟨.createFromUsageLog 60 1 50, .answered⟩,
    ⟨.create ⟨61, 62, 5, 5⟩ granted ⟨20, .personal, some 1⟩ (sampleIntent 63 "alipay" (some "x")),
      .answered⟩,
    ⟨.review ⟨0, 0, 6, 6⟩ granted ⟨30, .tenantAdmin, some 1⟩ ⟨61, 1, .reject, "no"⟩, .answered⟩,
    ⟨.create ⟨64, 65, 7, 7⟩ granted ⟨20, .personal, some 1⟩ (sampleIntent 66 "balance" none),
      .lost true⟩,
    ⟨.create ⟨67, 68, 8, 8⟩ granted ⟨20, .personal, some 1⟩ (sampleIntent 66 "balance" none),
      .answered⟩]

theorem sampleWithdrawals_allowed : ∀ e ∈ sampleWithdrawals, e.Allowed := by
  intro e member call hcall
  simp only [sampleWithdrawals, mem_cons, not_mem_nil, or_false] at member
  rcases member with rfl | rfl | rfl | rfl | rfl <;> cases hcall

theorem tips_safe_sampleWithdrawals :
    ((run (fun _ => "") sampleWithdrawals (TipBook.initial servedRequest)).db.nodeTipWithdrawals.map
        fun w => (w.status, w.totalAmount)) = [(.rejected, 18), (.completed, 18)] ∧
      Safe (fun _ => "") (run (fun _ => "") sampleWithdrawals (TipBook.initial servedRequest)) :=
  ⟨by decide +kernel,
    tips_safe _ servedRequest rfl rfl sampleWithdrawals sampleWithdrawals_allowed⟩

end Run

end TipBook

end KeyCompute
