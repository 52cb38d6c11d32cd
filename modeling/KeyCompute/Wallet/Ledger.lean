import KeyCompute.Accounting.Account
import KeyCompute.Wallet.Lifecycle

/-!
# The wallet ledger

`Tables.view p` is the abstract account of a principal: its wallet columns, its active reservations
as the held part, and its journal.  A wallet step only makes moves of such an account, for every
principal at once (`WalletStep.moves`).

A principal without a wallet has the account of an empty wallet, so creating one is not a move.  The
only fact about reachable states that the steps need is `Backed`: a reservation's wallet exists.
-/

namespace KeyCompute

open Relational Accounting BalanceReservation Tables UserBalance BalanceTransaction Moves

/-! ## The account of a principal -/

def TransactionType.posting : TransactionType → Posting
  | .recharge => .credit
  | .tipCredit => .credit
  | .consume => .debit
  | .freeze => .lock
  | .unfreeze => .unlock

def BalanceTransaction.entry (x : BalanceTransaction) : Entry :=
  ⟨x.transactionType.posting, x.amount⟩

/-- The account of a wallet with the given total of active reservations. -/
def UserBalance.account (b : UserBalance) (active : ℤ) : Account where
  available := b.availableBalance
  held := active
  locked := b.frozenBalance - active
  credited := b.totalRecharged
  debited := b.totalConsumed

namespace Tables

variable (t : Tables) (p : Principal)

def wallet : UserBalance := (t.balance? p).getD (.zero p)

def journal : List Entry :=
  (t.balanceTransactions.filter fun x => decide (x.principal = p)).map entry

def view : Account × List Entry := ((t.wallet p).account (t.activeTotal p), t.journal p)

def transactionTotal (types : TransactionType → Bool) : ℤ :=
  totalWhere (fun x => decide (x.principal = p) && types x.transactionType)
    BalanceTransaction.amount t.balanceTransactions

end Tables

theorem Tables.journalTotal_journal (t : Tables) (p : Principal) (kinds : Posting → Bool) :
    journalTotal kinds (t.journal p) = t.transactionTotal p fun type => kinds type.posting := by
  rw [journalTotal, journal, totalWhere, List.filter_map, List.map_map, List.filter_filter]
  have hpred : (fun x : BalanceTransaction => ((fun e : Entry => kinds e.posting) ∘
      entry) x && decide (x.principal = p)) =
      fun x => decide (x.principal = p) && kinds x.transactionType.posting := by
    funext x
    exact Bool.and_comm _ _
  rw [hpred]
  rfl

/-! ### Moves of the account -/

namespace UserBalance

variable (b : UserBalance) (active a : ℤ) (journal : List Entry)

theorem move_hold :
    Move none (b.account active, journal) ((b.hold a).account (active + a), journal) := by
  have h := Move.hold (b.account active) journal a
  convert h using 2
  simp only [account, hold, Account.mk.injEq, true_and, and_true]
  omega

theorem move_credit : Move (some .credit) (b.account active, journal)
    ((b.credit a).account active, journal ++ [⟨.credit, a⟩]) :=
  Move.credit (b.account active) journal a

theorem move_debit : Move (some .debit) (b.account active, journal)
    ((b.debit a).account active, journal ++ [⟨.debit, -a⟩]) :=
  Move.debit (b.account active) journal a

theorem move_lock (nonneg : 0 ≤ a) : Move (some .lock) (b.account active, journal)
    ((b.hold a).account active, journal ++ [⟨.lock, -a⟩]) := by
  convert Move.lock (b.account active) journal a nonneg using 2
  simp only [account, hold, Account.mk.injEq, true_and, and_true]
  omega

theorem move_unlock (covered : a ≤ b.frozenBalance - active) :
    Move (some .unlock) (b.account active, journal)
    ((b.unhold a).account active, journal ++ [⟨.unlock, a⟩]) := by
  convert Move.unlock (b.account active) journal a covered using 2
  simp only [account, unhold, Account.mk.injEq, true_and, and_true]
  omega

theorem hold_neg : b.hold (-a) = b.unhold a := by
  simp [hold, unhold, sub_eq_add_neg]

end UserBalance

/-! ### The account after a write -/

/-- What the reservation holds of its wallet. -/
def BalanceReservation.held (r : BalanceReservation) : ℤ :=
  if r.status = .active then r.amount else 0

theorem BalanceReservation.contribution_activeFor (p : Principal) (r : BalanceReservation) :
    contribution (activeFor p) amount r = if r.principal = p then r.held else 0 := by
  by_cases hp : r.principal = p <;> by_cases hactive : r.status = .active <;>
    simp [contribution, activeFor, held, hp, hactive]

namespace Tables

variable {t : Tables} {p q : Principal} {x : BalanceTransaction}

theorem wallet_of_balance? {b : UserBalance} (h : t.balance? p = some b) : t.wallet p = b := by
  rw [wallet, h]
  rfl

theorem balance?_insertBalanceIfAbsent :
    (t.insertBalanceIfAbsent (.zero q)).balance? p =
      if p = q then some (t.wallet p) else t.balance? p := by
  rw [balance?, insertBalanceIfAbsent, lookup_insertIfAbsent]
  by_cases hp : p = q
  · subst hp
    rfl
  · exact (if_neg hp).trans (if_neg hp).symm

theorem wallet_insertBalanceIfAbsent :
    (t.insertBalanceIfAbsent (.zero q)).wallet p = t.wallet p := by
  rw [wallet, balance?_insertBalanceIfAbsent]
  split <;> rfl

theorem balance?_updateBalance {f : UserBalance → UserBalance}
    (hf : ∀ b, (f b).principal = b.principal) :
    (t.updateBalance q f).balance? p =
      if p = q then (t.balance? q).map f else t.balance? p :=
  lookup_updateKey hf

theorem wallet_updateBalance {f : UserBalance → UserBalance}
    (hf : ∀ b, (f b).principal = b.principal) (exists' : (t.balance? q).isSome) :
    (t.updateBalance q f).wallet p = if p = q then f (t.wallet p) else t.wallet p := by
  obtain ⟨b, hb⟩ := Option.isSome_iff_exists.mp exists'
  rw [wallet, balance?_updateBalance hf]
  by_cases hp : p = q
  · subst hp
    simp [hb, wallet]
  · simp [hp, wallet]

/-- A credit, also to a user without a wallet. -/
theorem wallet_creditOrInsert {amount : ℤ} : (t.creditOrInsert q amount).wallet p =
    if p = q then (t.wallet p).credit amount else t.wallet p := by
  rw [creditOrInsert, wallet_updateBalance (fun b => b.principal_credit amount),
    wallet_insertBalanceIfAbsent]
  rw [balance?_insertBalanceIfAbsent, if_pos rfl]
  rfl

theorem journal_insertTransaction :
    (t.insertTransaction x).journal p =
      t.journal p ++ if x.principal = p then [x.entry] else [] := by
  by_cases hp : x.principal = p <;> simp [journal, hp]

theorem activeTotal_insertReservation {r : BalanceReservation} :
    (t.insertReservation r).activeTotal p =
      t.activeTotal p + if r.principal = p then r.held else 0 := by
  rw [← contribution_activeFor, ← totalWhere_singleton]
  exact totalWhere_append _

end Tables

theorem Database.activeTotal_updateReservation {db : Database} {p : Principal} {id : Uuid}
    {g : BalanceReservation → BalanceReservation} {r : BalanceReservation}
    (found : db.reservation? id = some r) (hprincipal : (g r).principal = r.principal) :
    (db.toTables.updateReservation id g).activeTotal p =
      db.activeTotal p + if r.principal = p then (g r).held - r.held else 0 := by
  have h : (db.toTables.updateReservation id g).activeTotal p = db.activeTotal p -
      contribution (activeFor p) amount r +
      contribution (activeFor p) amount (g r) :=
    totalWhere_updateKey db.reservations_unique found
  rw [h, contribution_activeFor, contribution_activeFor,
    hprincipal]
  split <;> omega

/-! ## Backed reservations -/

def Backed (t : Tables) : Prop :=
  ∀ r ∈ t.balanceReservations, (t.balance? r.principal).isSome

theorem Backed.expiredTotal {t : Tables} {p : Principal} (backed : Backed t) (now : Timestamp)
    (hb : t.balance? p = none) : t.expiredTotal now p = 0 := by
  refine totalWhere_eq_zero fun r member hr => ?_
  have hsome := backed r member
  rw [(of_decide_eq_true hr).1, hb] at hsome
  cases hsome

/-! ## A step moves accounts -/

def Act.kinds : Act → Option Posting → Prop
  | .charge _, k => k = none ∨ k = some .debit
  | .credit .., k => k = some .credit
  | .lock, k => k = some .lock ∨ k = some .unlock
  | _, k => k = none

section Moves

variable {db : Database} {t' : Tables} {kinds : Option Posting → Prop}

theorem Tables.view_congr {t t' : Tables} {p : Principal} (hwallet : t'.wallet p = t.wallet p)
    (hactive : t'.activeTotal p = t.activeTotal p) (hjournal : t'.journal p = t.journal p) :
    t'.view p = t.view p := by
  rw [view, view, hwallet, hactive, hjournal]

variable {g : BalanceReservation → BalanceReservation} {out : UserBalance × BalanceTransaction}
  {r : BalanceReservation} {x : BalanceTransaction} {q : Principal} {amount : ℤ}

theorem moves_resize {id : Uuid} (found : db.reservation? id = some r)
    (hprincipal : (g r).principal = r.principal) (wallet : (db.balance? r.principal).isSome)
    (hnone : kinds none) (p : Principal) :
    Moves kinds (db.view p) (((db.toTables.updateBalance r.principal
      (·.hold ((g r).held - r.held))).updateReservation id g).view p) := by
  have hactive := Database.activeTotal_updateReservation (p := p) found hprincipal
  have hwallet := wallet_updateBalance (p := p)
    (fun b => b.principal_hold ((g r).held - r.held)) wallet
  by_cases hp : p = r.principal
  · subst hp
    rw [if_pos rfl] at hactive hwallet
    have h := (db.wallet r.principal).move_hold (db.activeTotal r.principal) ((g r).held - r.held)
      (db.journal r.principal)
    rw [← hactive, ← hwallet] at h
    exact single h hnone
  · rw [if_neg (Ne.symm hp), add_zero] at hactive
    rw [if_neg hp] at hwallet
    have hsame : ((db.toTables.updateBalance r.principal
        (·.hold ((g r).held - r.held))).updateReservation id g).view p = db.view p :=
      view_congr hwallet hactive rfl
    rw [hsame]
    exact refl _

/-- Ending a reservation: its amount returns to the available funds. -/
theorem moves_unhold {id : Uuid} (found : db.reservation? id = some r) (status : r.status = .active)
    (hprincipal : (g r).principal = r.principal) (ended : (g r).status ≠ .active)
    (wallet : (db.balance? r.principal).isSome) (hnone : kinds none) (p : Principal) :
    Moves kinds (db.view p) (((db.toTables.updateBalance r.principal
      (·.unhold r.amount)).updateReservation id g).view p) := by
  have h := moves_resize found hprincipal wallet hnone p
  have hheld : (g r).held - r.held = -r.amount := by
    simp [held, status, ended]
  rw [hheld] at h
  simpa only [hold_neg] using h

theorem moves_post {k : Option Posting} {t t' : Tables} (hx : x.principal = q)
    (hjournal : t'.balanceTransactions = t.balanceTransactions ++ [x])
    (hactive : t'.balanceReservations = t.balanceReservations)
    (hother : ∀ p ≠ q, t'.wallet p = t.wallet p)
    (hmove : Move k (t.view q) ((t'.wallet q).account (t.activeTotal q), t.journal q ++ [x.entry]))
    (hk : kinds k) (p : Principal) : Moves kinds (t.view p) (t'.view p) := by
  have hj : t'.journal p = (t.insertTransaction x).journal p := by
    rw [journal, journal, hjournal]
    rfl
  have ha : t'.activeTotal p = t.activeTotal p := by
    rw [activeTotal, activeTotal, hactive]
  rw [journal_insertTransaction, hx] at hj
  by_cases hp : p = q
  · subst hp
    rw [if_pos rfl] at hj
    have hview :
        t'.view p = ((t'.wallet p).account (t.activeTotal p), t.journal p ++ [x.entry]) := by
      rw [view, ha, hj]
    exact hview ▸ single hmove hk
  · rw [if_neg (Ne.symm hp), List.append_nil] at hj
    rw [view_congr (hother p hp) ha hj]
    exact refl _

theorem Moved.moves {k : Option Posting} {f : UserBalance → UserBalance} {type : TransactionType}
    {orderId usageLogId : Option Uuid} {t : Tables}
    (h : Moved t q f type orderId usageLogId amount out t')
    (hf : ∀ b, (f b).principal = b.principal) (hmove : Move k (t.view q)
      ((f (t.wallet q)).account (t.activeTotal q), t.journal q ++ [⟨type.posting, amount⟩]))
    (hk : kinds k) (p : Principal) : Moves kinds (t.view p) (t'.view p) := by
  obtain ⟨b, hb, -⟩ := h.wallet
  have hwallet (p : Principal) : t'.wallet p = if p = q then f (t.wallet p) else t.wallet p := by
    rw [h.tables]
    exact wallet_updateBalance hf (by rw [hb]; rfl)
  refine moves_post h.records.principal (by rw [h.tables]; rfl) (by rw [h.tables]; rfl)
    (fun p hp => by rw [hwallet, if_neg hp]) ?_ hk p
  rw [hwallet, if_pos rfl, entry, h.records.type, h.records.amount]
  exact hmove

theorem ReserveEffect.moves {req : ReserveRequest}
    (h : ReserveEffect req db.toTables t') (hnone : kinds none)
    (p : Principal) :
    Moves kinds (db.view p) (t'.view p) := by
  cases h with
  | @created b amount wallet nonneg absent =>
    have hheld : (new req amount).held = amount := if_pos rfl
    have hwallet := wallet_updateBalance (p := p) (fun b => b.principal_hold amount)
      (Option.isSome_of_eq_some wallet)
    have hactive := activeTotal_insertReservation (t := db.toTables) (p := p)
      (r := new req amount)
    have hprincipal : (new req amount).principal = req.principal := rfl
    rw [hheld, hprincipal] at hactive
    by_cases hp : p = req.principal
    · subst hp
      rw [if_pos rfl] at hwallet hactive
      have hmove := (db.wallet req.principal).move_hold (db.activeTotal req.principal) amount
        (db.journal req.principal)
      rw [← hwallet, ← hactive] at hmove
      exact single hmove hnone
    · rw [if_neg hp] at hwallet
      rw [if_neg (Ne.symm hp), add_zero] at hactive
      have hsame : ((db.toTables.updateBalance req.principal (·.hold amount)).insertReservation
          (new req amount)).view p = db.view p :=
        view_congr hwallet hactive rfl
      rw [hsame]
      exact refl _
  | @retaken b amount existing wallet nonneg found reusable =>
    have hheld : (reactivate req amount existing).held = amount := if_pos rfl
    have hreplaced : replacedActiveAmount (some existing) = existing.held :=
      rfl
    have hmoves := moves_resize (g := reactivate req amount) found rfl
      (by rw [reusable.principal, wallet]; rfl) hnone p
    rwa [hheld, ← hreplaced, reusable.principal] at hmoves

/-- The first charge out of a reservation: its amount returns, the charge is debited. -/
theorem moves_charged {id : Uuid} {log : Option Uuid} (found : db.reservation? id = some r)
    (status : r.status = .active) (hprincipal : (g r).principal = r.principal)
    (ended : (g r).status ≠ .active) (wallet : (db.balance? r.principal).isSome)
    (records : x.Records r.principal .consume none log (-amount)) (hnone : kinds none)
    (hdebit : kinds (some .debit)) (p : Principal) :
    Moves kinds (db.view p) ((((db.toTables.updateBalance r.principal
      (·.settle amount r.amount)).insertTransaction x).updateReservation id g).view p) := by
  -- the step without the charge, on which the charge is posted
  have hrelease := moves_unhold found status hprincipal ended wallet hnone p
  refine hrelease.trans (moves_post records.principal ?_ ?_ ?_ ?_ hdebit p)
  · rfl
  · rfl
  · intro p hp
    have h₁ := wallet_updateBalance (p := p) (fun b => b.principal_settle amount r.amount)
      wallet
    have h₂ := wallet_updateBalance (p := p) (fun b => b.principal_unhold r.amount) wallet
    rw [if_neg hp] at h₁ h₂
    exact h₁.trans h₂.symm
  · have h₁ := wallet_updateBalance (p := r.principal)
      (fun b => b.principal_settle amount r.amount) wallet
    have h₂ := wallet_updateBalance (p := r.principal)
      (fun b => b.principal_unhold r.amount) wallet
    rw [if_pos rfl] at h₁ h₂
    rw [settle_eq, ← h₂] at h₁
    have hentry : x.entry = ⟨.debit, -amount⟩ := by
      rw [entry, records.type, records.amount]
      rfl
    rw [hentry]
    exact h₁ ▸ move_debit _ _ amount _

theorem SettleEffect.moves {now : Timestamp} {req : SettleRequest}
    {out : Option (UserBalance × BalanceTransaction)}
    (h : SettleEffect now req db.toTables t' out) (hnone : kinds none)
    (hdebit : kinds (some .debit)) (p : Principal) :
    Moves kinds (db.view p) (t'.view p) := by
  cases h with
  | replayed | declined => exact refl _
  | reconciled found status owner wallet charged same =>
    exact moves_unhold found status rfl (by simp [markSettled])
      (Option.isSome_of_eq_some wallet) hnone p
  | charged found status owner wallet uncharged records =>
    exact moves_charged found status rfl (by simp [markSettled])
      (Option.isSome_of_eq_some wallet) records hnone hdebit p

theorem ReleaseEffect.moves {now : Timestamp} {req : ReleaseRequest} {out : Bool}
    (backed : Backed db.toTables)
    (h : ReleaseEffect now req db.toTables t' out) (hnone : kinds none)
    (p : Principal) :
    Moves kinds (db.view p) (t'.view p) := by
  cases h with
  | declined => exact refl _
  | released found status owner =>
    exact moves_unhold found status rfl (by simp [markReleased])
      (backed _ (Database.reservation?_eq_some.mp found).1) hnone p

theorem AdminReleaseEffect.moves {clock : Timestamp} {scope : FinancialScope}
    {command : ReleaseReservationCommand}
    (h : AdminReleaseEffect clock scope command db.toTables t')
    (hnone : kinds none) (p : Principal) : Moves kinds (db.view p) (t'.view p) := by
  cases h with
  | unchanged => exact refl _
  | released found status owner wallet =>
    exact moves_unhold found status rfl
      (by simp [markAdministrativelyReleased])
      (Option.isSome_of_eq_some wallet) hnone p

theorem moves_reclaim (ps : List Principal) (now : Timestamp) (hnone : kinds none) (p : Principal)
    (wallet : p ∈ ps → db.balance? p = none → db.expiredTotal now p = 0) :
    Moves kinds (db.view p) ((db.toTables.reclaim ps now).view p) := by
  have hwallet : (db.toTables.reclaim ps now).wallet p = if p ∈ ps then
      (db.wallet p).unhold (db.expiredTotal now p) else db.wallet p := by
    rw [Tables.wallet, Tables.balance?_reclaim, Tables.wallet]
    cases hb : db.balance? p with
    | some b => simp
    | none => simp_all
  by_cases hp : p ∈ ps
  · have hactive : (db.toTables.reclaim ps now).activeTotal p + db.expiredTotal now p =
        db.activeTotal p := Tables.activeTotal_reclaim hp
    rw [if_pos hp, ← hold_neg] at hwallet
    have hmove := (db.wallet p).move_hold (db.activeTotal p) (-db.expiredTotal now p)
      (db.journal p)
    rw [← hwallet, show db.activeTotal p + -db.expiredTotal now p =
      (db.toTables.reclaim ps now).activeTotal p by omega] at hmove
    exact single hmove hnone
  · rw [if_neg hp] at hwallet
    rw [Tables.view_congr hwallet (Tables.activeTotal_reclaim_of_not_mem hp) rfl]
    exact refl _

theorem moves_credited {type : TransactionType} {orderId : Option Uuid} {t : Tables}
    (type_eq : type = .recharge ∨ type = .tipCredit)
    (records : x.Records q type orderId none amount) (hcredit : kinds (some .credit))
    (p : Principal) :
    Moves kinds (t.view p) (((t.creditOrInsert q amount).insertTransaction x).view p) := by
  have hentry : x.entry = ⟨.credit, amount⟩ := by
    rw [entry, records.type, records.amount]
    rcases type_eq with rfl | rfl <;> rfl
  refine moves_post records.principal ?_ ?_ ?_ ?_ hcredit p
  · rfl
  · rfl
  · exact fun p hp => wallet_creditOrInsert.trans (if_neg hp)
  · rw [hentry]
    exact (wallet_creditOrInsert.trans (if_pos rfl)) ▸ move_credit _ _ amount _

theorem ConsumeEffect.moves {usageLogId : Option Uuid} {t : Tables}
    (h : ConsumeEffect q amount usageLogId t t' out) (hdebit : kinds (some .debit))
    (p : Principal) : Moves kinds (t.view p) (t'.view p) := by
  cases h with
  | replayed => exact refl _
  | charged unrecorded moved =>
    exact moved.moves (fun b => b.principal_debit _) (move_debit _ _ _ _) hdebit p

/-- **Every step only moves accounts**, for every principal at once. -/
theorem WalletStep.moves {act : Act} (backed : Backed db.toTables)
    (h : WalletStep db.toTables act t') (p : Principal) :
    Moves act.kinds (db.view p) (t'.view p) := by
  cases h with
  | opened q =>
    rw [view_congr wallet_insertBalanceIfAbsent rfl rfl]
    exact refl _
  | reclaimed ps now => exact moves_reclaim ps now (by exact rfl) p fun _ => backed.expiredTotal now
  | reserved effect => exact ReserveEffect.moves effect (by exact rfl) p
  | settled effect => exact SettleEffect.moves effect (.inl rfl) (.inr rfl) p
  | released effect => exact ReleaseEffect.moves backed effect (by exact rfl) p
  | adminReleased effect => exact AdminReleaseEffect.moves effect (by exact rfl) p
  | credited type_eq records => exact moves_credited type_eq records (by exact rfl) p
  | consumed effect => exact ConsumeEffect.moves effect (.inr rfl) p
  | frozen nonneg moved =>
    exact moved.moves (fun b => b.principal_hold _) (move_lock _ _ _ _ nonneg)
      (.inl rfl) p
  | unfrozen wallet covered moved =>
    refine moved.moves (fun b => b.principal_unhold _) ?_ (.inr rfl) p
    exact move_unlock _ _ _ _ (by rwa [wallet_of_balance? wallet])
  | elsewhere balances reservations transactions =>
    have hview : t'.view p = db.view p := by
      simp only [view, wallet, balance?, activeTotal, journal,
        balances, reservations, transactions]
    rw [hview]
    exact refl _

end Moves

/-! ## Reservations stay backed -/

section Backed

variable {t t' : Tables} {p q : Principal}

theorem Tables.isSome_updateBalance {f : UserBalance → UserBalance}
    (hf : ∀ b, (f b).principal = b.principal) :
    ((t.updateBalance q f).balance? p).isSome = (t.balance? p).isSome := by
  rw [balance?_updateBalance hf]
  by_cases hp : p = q <;> simp [hp]

theorem Tables.isSome_insertBalanceIfAbsent (h : (t.balance? p).isSome) :
    ((t.insertBalanceIfAbsent (.zero q)).balance? p).isSome := by
  rw [balance?_insertBalanceIfAbsent]
  split
  · rfl
  · exact h

theorem Tables.isSome_reclaim (ps : List Principal) (now : Timestamp) :
    ((t.reclaim ps now).balance? p).isSome = (t.balance? p).isSome := by
  rw [balance?_reclaim, Option.isSome_map]

theorem Moved.isSome {f : UserBalance → UserBalance} {type : TransactionType}
    {orderId usageLogId : Option Uuid} {amount : ℤ} {out : UserBalance × BalanceTransaction}
    (h : Moved t q f type orderId usageLogId amount out t')
    (hf : ∀ b, (f b).principal = b.principal) :
    (t'.balance? p).isSome = (t.balance? p).isSome := by
  rw [h.tables]
  exact isSome_updateBalance hf

theorem WalletStep.wallet_persists {act : Act} (h : WalletStep t act t')
    (hp : (t.balance? p).isSome) :
    (t'.balance? p).isSome := by
  have hupdate {f : UserBalance → UserBalance} (q : Principal)
      (hf : ∀ b, (f b).principal = b.principal) : ((t.updateBalance q f).balance? p).isSome := by
    rwa [isSome_updateBalance hf]
  cases h with
  | opened q => exact isSome_insertBalanceIfAbsent hp
  | reclaimed ps now => rwa [isSome_reclaim]
  | reserved effect => cases effect <;> exact hupdate _ fun b => b.principal_hold _
  | settled effect =>
    cases effect with
    | replayed => exact hp
    | declined => exact hp
    | reconciled => exact hupdate _ fun b => b.principal_unhold _
    | charged => exact hupdate _ fun b => b.principal_settle _ _
  | released effect =>
    cases effect with
    | declined => exact hp
    | released => exact hupdate _ fun b => b.principal_unhold _
  | adminReleased effect =>
    cases effect with
    | unchanged => exact hp
    | released => exact hupdate _ fun b => b.principal_unhold _
  | credited type_eq records =>
    refine Eq.trans (isSome_updateBalance fun b => b.principal_credit _) ?_
    exact isSome_insertBalanceIfAbsent hp
  | consumed effect =>
    cases effect with
    | replayed => exact hp
    | charged unrecorded moved => rwa [moved.isSome fun b => b.principal_debit _]
  | frozen nonneg moved => rwa [moved.isSome fun b => b.principal_hold _]
  | unfrozen wallet covered moved => rwa [moved.isSome fun b => b.principal_unhold _]
  | elsewhere balances reservations transactions => rwa [balance?, balances]

theorem WalletStep.backed {act : Act} {db db' : Database}
    (h : WalletStep db.toTables act db'.toTables) (backed : Backed db.toTables) :
    Backed db'.toTables := by
  intro r' member
  have hchange := h.rowChange r'.requestId
  rw [Database.reservation?_eq_some.mpr ⟨member, rfl⟩] at hchange
  rcases hchange.principal with ⟨r, hr, hprincipal⟩ | hwallet
  · rw [hprincipal]
    exact h.wallet_persists (backed r (Database.reservation?_eq_some.mp hr).1)
  · exact h.wallet_persists hwallet

end Backed

section Runs

variable {acts : Act → Prop} {db db' : Database}

theorem WalletSteps.wallet_persists {p : Principal} (h : WalletSteps acts db db')
    (hp : (db.balance? p).isSome) : (db'.balance? p).isSome :=
  h.invariant (I := fun db : Database => (db.balance? p).isSome)
    (fun _ step => step.wallet_persists) hp

theorem WalletSteps.backed (h : WalletSteps acts db db') (backed : Backed db.toTables) :
    Backed db'.toTables :=
  h.invariant (fun _ step => step.backed) backed

theorem WalletSteps.moves (h : WalletSteps acts db db') (backed : Backed db.toTables)
    (p : Principal) :
    Moves (fun k => ∃ act, acts act ∧ act.kinds k) (db.view p) (db'.view p) := by
  induction h with
  | refl => exact Moves.refl _
  | tail steps step ih =>
    obtain ⟨act, hact, step⟩ := step
    have hmoves := step.moves (WalletSteps.backed steps backed) p
    exact ih.trans (hmoves.mono fun k hk => ⟨act, hact, hk⟩)

theorem reconciled_run (backed : Backed db.toTables)
    (reconciled : ∀ p, Reconciled (db.view p).1 (db.view p).2) (calls : List WalletCall)
    (p : Principal) :
    Reconciled ((runAll WalletCall.step calls db).view p).1
      ((runAll WalletCall.step calls db).view p).2 := by
  refine (runAll_invariant (I := fun db : Database => Backed db.toTables ∧
    ∀ p, Reconciled (db.view p).1 (db.view p).2)
      (fun c db h => ?_) calls db ⟨backed, reconciled⟩).2 p
  have hsteps := c.steps db
  exact ⟨hsteps.backed h.1, fun p => (hsteps.moves h.1 p).reconciled (h.2 p)⟩

end Runs

/-! ## The ledger equations -/

structure WalletLedger (t : Tables) (b : UserBalance) : Prop where
  funds : b.availableBalance + t.activeTotal b.principal =
    t.transactionTotal b.principal fun _ => true
  frozen : b.frozenBalance - t.activeTotal b.principal =
    -t.transactionTotal b.principal fun type => type = .freeze ∨ type = .unfreeze
  frozen_nonneg : 0 ≤ b.frozenBalance - t.activeTotal b.principal
  recharged : b.totalRecharged =
    t.transactionTotal b.principal fun type => type = .recharge ∨ type = .tipCredit
  consumed : b.totalConsumed = -t.transactionTotal b.principal fun type => type = .consume

theorem WalletLedger.of_reconciled {db : Database} {b : UserBalance} (hb : b ∈ db.userBalances)
    (h : Reconciled (db.view b.principal).1 (db.view b.principal).2) :
    WalletLedger db.toTables b := by
  have hwallet : db.wallet b.principal = b :=
    wallet_of_balance? (Database.balance?_eq_some.mpr ⟨hb, rfl⟩)
  obtain ⟨funds, locked, nonneg, credited, debited⟩ := h
  simp only [view, hwallet, account, journalTotal_journal] at *
  have htypes (f g : TransactionType → Bool) (hfg : ∀ type, f type = g type) :
      db.transactionTotal b.principal f = db.transactionTotal b.principal g := by
    rw [funext hfg]
  refine ⟨funds, ?_, nonneg, ?_, ?_⟩
  · rw [locked, htypes _ _ fun type => ?_]
    cases type <;> rfl
  · rw [credited, htypes _ _ fun type => ?_]
    cases type <;> rfl
  · rw [debited, htypes _ _ fun type => ?_]
    cases type <;> rfl

/-- **Conservation.**  From a state without wallets (and so without reservations and journal
rows), every interleaving of wallet calls keeps the ledger equations of every wallet. -/
theorem wallet_ledger (db : Database) (noWallets : db.userBalances = [])
    (noReservations : db.balanceReservations = []) (noTransactions : db.balanceTransactions = [])
    (calls : List WalletCall) :
    ∀ b ∈ (runAll WalletCall.step calls db).userBalances,
      WalletLedger (runAll WalletCall.step calls db).toTables b := by
  intro b hb
  refine WalletLedger.of_reconciled hb (reconciled_run ?_ (fun p => ?_) calls b.principal)
  · simp [Backed, noReservations]
  · have hview : db.view p = (⟨0, 0, 0, 0, 0⟩, []) := by
      simp [view, wallet, balance?, activeTotal, journal,
        noWallets, noReservations, noTransactions, account, zero, lookup,
        totalWhere]
    rw [hview]
    exact Reconciled.empty

/-- **No wallet call creates or destroys funds.**  From any database, with whatever its wallets and
journals hold, the funds of a wallet change by what its totals of recharges and consumption say. -/
theorem wallet_worth_kept (db : Database) (backed : Backed db.toTables) (calls : List WalletCall)
    (p : Principal) :
    let before := db.wallet p
    let after := (runAll WalletCall.step calls db).wallet p
    after.availableBalance + after.frozenBalance =
      before.availableBalance + before.frozenBalance +
        (after.totalRecharged - before.totalRecharged) -
        (after.totalConsumed - before.totalConsumed) := by
  intro before after
  have hworth : ((runAll WalletCall.step calls db).view p).1.worth = (db.view p).1.worth := by
    refine (runAll_invariant (I := fun db' : Database => Backed db'.toTables ∧
      (db'.view p).1.worth = (db.view p).1.worth) (fun c db' h => ?_) calls db ⟨backed, rfl⟩).2
    have hsteps := c.steps db'
    exact ⟨hsteps.backed h.1, (hsteps.moves h.1 p).worth.trans h.2⟩
  simp only [Account.worth, view, account] at hworth
  linarith

/-- An empty database with one member and one usage log. -/
def freshTenant : Database where
  reference :=
    { tenants := [⟨1, true⟩], users := [⟨10, true⟩], memberships := [⟨1, 10, .active⟩],
      usageLogs := [⟨50, 100, 1, 10, 20, "CNY"⟩], nodes := [], nodeTasks := [],
      nodeTipRatio := none }
  userBalances := []
  balanceReservations := []
  balanceTransactions := []
  adminBalanceOperations := []
  paymentOrders := []
  paymentNotifications := []
  nodeTips := []
  nodeTipWithdrawals := []
  valid := by decide

/-- A recharge, a freeze, a reservation, its settlement and a second reservation. -/
def freshTenantCalls : List WalletCall :=
  [.recharge 1000 ⟨1, 10⟩ 100 none none, .freeze 5 1001 ⟨1, 10⟩ 10 none,
    .reserve 5 5 ⟨1, 10, 100, 7, 30, 0, 90⟩,
    .settle 6 1002 ⟨1, 10, 100, some 7, 20, 50, none⟩,
    .reserve 6 6 ⟨1, 10, 101, 8, 15, 0, 90⟩]

theorem wallet_ledger_freshTenant :
    (runAll WalletCall.step freshTenantCalls freshTenant).userBalances =
        [⟨1, 10, 55, 25, 100, 20⟩] ∧
      ∀ b ∈ (runAll WalletCall.step freshTenantCalls freshTenant).userBalances,
        WalletLedger (runAll WalletCall.step freshTenantCalls freshTenant).toTables b :=
  ⟨by decide, wallet_ledger freshTenant rfl rfl rfl freshTenantCalls⟩

theorem wallet_worth_kept_freshTenant :
    let after := (runAll WalletCall.step freshTenantCalls freshTenant).wallet ⟨1, 10⟩
    after.availableBalance + after.frozenBalance =
      0 + 0 + (after.totalRecharged - 0) - (after.totalConsumed - 0) :=
  wallet_worth_kept freshTenant (fun _ h => nomatch h) freshTenantCalls ⟨1, 10⟩

end KeyCompute
