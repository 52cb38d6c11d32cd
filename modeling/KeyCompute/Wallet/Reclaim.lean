import KeyCompute.Database.Statement

/-!
# Expiry reclamation of balance reservations

`reclaim_expired_for_locked_balances_inner` aggregates the active reservations of the candidate
principals, marks the expired ones of the locked wallets, compares the two aggregates and gives the
expired amounts back; `Tables.reclaim` is the effect of a success.

The first query filters by the *independent* arrays of user ids and tenant ids, so it sees every
principal of their product; the marking statement uses the exact pairs.  The row-count comparison
between them is the one place where they meet.
-/

namespace KeyCompute

open Relational BalanceReservation Tables List Tx

/-! ## Aggregates of one principal -/

namespace BalanceReservation

/-- The row counts towards the active reservations of `p`. -/
def activeFor (p : Principal) (r : BalanceReservation) : Bool :=
  decide (r.principal = p ∧ r.status = .active)

/-- The row is an active reservation of `p` whose expiry has passed at `now`. -/
def expiredFor (now : Timestamp) (p : Principal) (r : BalanceReservation) : Bool :=
  decide (r.principal = p ∧ r.status = .active ∧ r.expiresAt ≤ now)

end BalanceReservation

namespace Tables

variable (t : Tables)

/-- `BalanceReservation::active_total_by_user`. -/
def activeTotal (p : Principal) : ℤ :=
  totalWhere (activeFor p) amount t.balanceReservations

def expiredTotal (now : Timestamp) (p : Principal) : ℤ :=
  totalWhere (expiredFor now p) amount t.balanceReservations

def expiredCount (now : Timestamp) (p : Principal) : Nat :=
  t.balanceReservations.countP (expiredFor now p)

end Tables

/-! ## The model of the source -/

structure ReservationReclaimCandidate where
  principal : Principal
  activeReserved : ℤ
  expiredAmount : ℤ
  expiredCount : Nat

/-- One group of the marking statement, and one entry of `expired_by_user`. -/
structure ReservationReclaimSummary where
  principal : Principal
  expiredAmount : ℤ
  expiredCount : Nat

/-- The map `active_totals`. -/
abbrev ActiveTotals := Principal → Option ℤ

structure ReclaimedBalanceState where
  balances : List UserBalance
  activeTotals : ActiveTotals
  reclaimed : Nat

namespace BalanceReservation

/-- The rows of the candidate query: `user_id = ANY(…) AND tenant_id = ANY(…) AND
status = 'active'`. -/
def candidateRow (userIds tenantIds : List Uuid) (r : BalanceReservation) : Bool :=
  decide (r.userId ∈ userIds ∧ r.tenantId ∈ tenantIds ∧ r.status = .active)

def reclaimCandidates (userIds tenantIds : List Uuid) (now : Timestamp) (t : Tables) :
    List ReservationReclaimCandidate :=
  let rows := t.balanceReservations.filter (candidateRow userIds tenantIds)
  (groupKeys principal rows).map fun p =>
    let group := rows.filter fun r => decide (r.principal = p)
    { principal := p
      activeReserved := totalWhere (fun _ => true) amount group
      expiredAmount := totalWhere (fun r => decide (r.expiresAt ≤ now)) amount group
      expiredCount := group.countP fun r => decide (r.expiresAt ≤ now) }

/-- The rows of the marking statement: the exact pairs, active and expired. -/
def reclaimedRow (ps : List Principal) (now : Timestamp) (r : BalanceReservation) : Bool :=
  decide (r.principal ∈ ps ∧ r.status = .active ∧ r.expiresAt ≤ now)

/-- `SET status = 'expired'`. -/
def expire (r : BalanceReservation) : BalanceReservation := { r with status := .expired }

def reclaimSummaries (ps : List Principal) (now : Timestamp) (t : Tables) :
    List ReservationReclaimSummary :=
  let rows := t.balanceReservations.filter (reclaimedRow ps now)
  (groupKeys principal rows).map fun p =>
    let group := rows.filter fun r => decide (r.principal = p)
    { principal := p
      expiredAmount := totalWhere (fun _ => true) amount group
      expiredCount := group.length }

/-- The first loop: checks each candidate, records its active total, and keeps those with
expired rows in `expired_by_user`. -/
def scanCandidates : List ReservationReclaimCandidate → ActiveTotals →
    Except DbError (ActiveTotals × List ReservationReclaimSummary)
  | [], totals => .ok (totals, [])
  | c :: rest, totals =>
    if c.activeReserved < 0 ∨ c.expiredAmount < 0 ∨ c.activeReserved < c.expiredAmount then
      .error (.other
        s!"invalid balance reservation reclaim aggregate for user {c.principal.userId}")
    else
      match scanCandidates rest (Function.update totals c.principal (some c.activeReserved)) with
      | .error e => .error e
      | .ok (totals, expired) =>
        if 0 < c.expiredCount then
          .ok (totals, ⟨c.principal, c.expiredAmount, c.expiredCount⟩ :: expired)
        else .ok (totals, expired)

/-- The wallet's frozen balance does not cover its active reservations. -/
def invalidBalance (totals : ActiveTotals) (b : UserBalance) : Bool :=
  decide (b.frozenBalance < (totals b.principal).getD 0)

/-- The second loop: `invalid_user_ids` when invalid wallets are isolated, an error for the
first of them otherwise. -/
def invalidUserIds (isolateInvalidUsers : Bool) (totals : ActiveTotals)
    (balances : List UserBalance) : Except DbError (List Principal) :=
  if isolateInvalidUsers then
    .ok ((balances.filter (invalidBalance totals)).map UserBalance.principal)
  else
    match balances.find? (invalidBalance totals) with
    | some b => .error (.other
        s!"active balance reservations for user {b.userId} exceed frozen balance")
    | none => .ok []

def matchSummaries (summaries : List ReservationReclaimSummary) :
    List ReservationReclaimSummary → Nat → ActiveTotals → Except DbError (Nat × ActiveTotals)
  | [], reclaimed, totals => .ok (reclaimed, totals)
  | expected :: rest, reclaimed, totals =>
    let p := expected.principal
    match summaries.find? fun s => decide (s.principal = p) with
    | none => .error (.other
        s!"expired reservation reclamation omitted principal ({p.tenantId}, {p.userId})")
    | some actual =>
      if actual.expiredAmount ≠ expected.expiredAmount ∨
          actual.expiredCount ≠ expected.expiredCount then
        .error (.other (
          s!"expired reservation reclamation for principal ({p.tenantId}, {p.userId}) changed " ++
          s!"{actual.expiredCount} rows totaling {actual.expiredAmount}, expected " ++
          s!"{expected.expiredCount} rows totaling {expected.expiredAmount}"))
      else
        match totals p with
        | none => .error (.other
            s!"active reservation aggregate omitted principal ({p.tenantId}, {p.userId})")
        | some activeReserved =>
          matchSummaries summaries rest (reclaimed + actual.expiredCount)
            (Function.update totals p (some (activeReserved - actual.expiredAmount)))

/-- The body of the last loop: gives one wallet its expired amount back. -/
def creditOne (summaries : List ReservationReclaimSummary) (balance : UserBalance) :
    DbTx UserBalance :=
  match summaries.find? fun s => decide (s.principal = balance.principal) with
  | none => pure balance
  | some summary =>
    if summary.expiredAmount = 0 then pure balance
    else do
      let row ← updateBalanceReturning balance.principal (·.unhold summary.expiredAmount)
      okOr row (.notFound "UserBalance" (toString balance.userId))

def creditReclaimed (summaries : List ReservationReclaimSummary) :
    List UserBalance → DbTx (List UserBalance)
  | [] => pure []
  | balance :: rest => do
    let updated ← creditOne summaries balance
    let updatedRest ← creditReclaimed summaries rest
    pure (updated :: updatedRest)

end BalanceReservation

def Tables.expireReservations (ps : List Principal) (now : Timestamp) (t : Tables) : Tables :=
  { t with
    balanceReservations :=
      updateWhere (reclaimedRow ps now) expire
        t.balanceReservations }

namespace BalanceReservation

/-- The part of a call that writes: marks the expired rows of `validUserIds`, compares the
marked groups with the `expected` ones and gives the amounts back. -/
def reclaimValidUsers (now : Timestamp) (balances : List UserBalance) (activeTotals : ActiveTotals)
    (validUserIds : List Principal) (expected : List ReservationReclaimSummary) :
    DbTx ReclaimedBalanceState := do
  let summaries ← read fun db => reclaimSummaries validUserIds now db.toTables
  exec (expireReservations validUserIds now)
  failIf (summaries.length ≠ expected.length) (.other <|
    s!"expired reservation reclamation returned {summaries.length} user summaries, " ++
      s!"expected {expected.length}")
  let (reclaimed, activeTotals) ← lift (matchSummaries summaries expected 0 activeTotals)
  let balances ← creditReclaimed summaries balances
  pure ⟨balances, activeTotals, reclaimed⟩

end BalanceReservation

open BalanceReservation in
/-- `BalanceReservation::reclaim_expired_for_locked_balances_inner`; `now` is the
transaction's `NOW()`. -/
def reclaimExpiredForLockedBalancesInner (now : Timestamp) (balances : List UserBalance)
    (isolateInvalidUsers : Bool) : DbTx ReclaimedBalanceState :=
  if balances = [] then pure ⟨balances, fun _ => none, 0⟩
  else do
    let userIds := balances.map UserBalance.userId
    let tenantIds := balances.map UserBalance.tenantId
    let candidates ← read fun db => reclaimCandidates userIds tenantIds now db.toTables
    let (activeTotals, expiredByUser) ← lift (scanCandidates candidates fun p =>
      if p ∈ balances.map UserBalance.principal then some 0 else none)
    let invalid ← lift (invalidUserIds isolateInvalidUsers activeTotals balances)
    if expiredByUser = [] then pure ⟨balances, activeTotals, 0⟩
    else
      let validUserIds := (balances.map UserBalance.principal).filter (· ∉ invalid)
      if validUserIds = [] then pure ⟨balances, activeTotals, 0⟩
      else
        reclaimValidUsers now balances activeTotals validUserIds
          (expiredByUser.filter (·.principal ∉ invalid))

def reclaimExpiredForLockedBalances (now : Timestamp) (balances : List UserBalance) :
    DbTx ReclaimedBalanceState :=
  reclaimExpiredForLockedBalancesInner now balances false

def reclaimExpiredForLockedBalancesIsolatingInvalidUsers (now : Timestamp)
    (balances : List UserBalance) : DbTx ReclaimedBalanceState :=
  reclaimExpiredForLockedBalancesInner now balances true

/-! ## The queries in closed form -/

namespace BalanceReservation

def candidateOf (t : Tables) (now : Timestamp) (p : Principal) : ReservationReclaimCandidate :=
  ⟨p, t.activeTotal p, t.expiredTotal now p, t.expiredCount now p⟩

def summaryOf (t : Tables) (now : Timestamp) (p : Principal) : ReservationReclaimSummary :=
  ⟨p, t.expiredTotal now p, t.expiredCount now p⟩

def candidateKeys (userIds tenantIds : List Uuid) (t : Tables) : List Principal :=
  groupKeys principal (t.balanceReservations.filter (candidateRow userIds tenantIds))

def summaryKeys (ps : List Principal) (now : Timestamp) (t : Tables) : List Principal :=
  groupKeys principal (t.balanceReservations.filter (reclaimedRow ps now))

theorem mem_candidateKeys {userIds tenantIds : List Uuid} {t : Tables} {p : Principal} :
    p ∈ candidateKeys userIds tenantIds t ↔
      (p.userId ∈ userIds ∧ p.tenantId ∈ tenantIds) ∧
        ∃ r ∈ t.balanceReservations, activeFor p r := by
  simp only [candidateKeys, mem_groupKeys, mem_filter, candidateRow, activeFor,
    decide_eq_true_eq]
  constructor
  · rintro ⟨r, ⟨member, huser, htenant, hactive⟩, rfl⟩
    exact ⟨⟨huser, htenant⟩, r, member, rfl, hactive⟩
  · rintro ⟨⟨huser, htenant⟩, r, member, rfl, hactive⟩
    exact ⟨r, ⟨member, huser, htenant, hactive⟩, rfl⟩

theorem mem_summaryKeys {ps : List Principal} {now : Timestamp} {t : Tables} {p : Principal} :
    p ∈ summaryKeys ps now t ↔ p ∈ ps ∧ 0 < t.expiredCount now p := by
  simp only [summaryKeys, mem_groupKeys, mem_filter, reclaimedRow, expiredCount,
    countP_pos_iff, expiredFor, decide_eq_true_eq]
  constructor
  · grind
  · grind

theorem summaryKeys_nodup {ps : List Principal} {now : Timestamp} {t : Tables} :
    (summaryKeys ps now t).Nodup :=
  groupKeys_nodup _ _

theorem reclaimCandidates_eq (userIds tenantIds : List Uuid) (now : Timestamp) (t : Tables) :
    reclaimCandidates userIds tenantIds now t =
      (candidateKeys userIds tenantIds t).map (candidateOf t now) := by
  refine map_congr_left fun p hp => ?_
  obtain ⟨⟨huser, htenant⟩, -⟩ := mem_candidateKeys.mp hp
  -- inside the product the query's filter is the principal's own active rows
  have hrow (r : BalanceReservation) (h : r.principal = p) :
      candidateRow userIds tenantIds r = decide (r.status = .active) := by
    subst h
    simp only [principal] at huser htenant
    simp [candidateRow, huser, htenant]
  simp only [candidateOf, ReservationReclaimCandidate.mk.injEq, true_and, totalWhere_filter,
    countP_filter, activeTotal, expiredTotal, expiredCount]
  refine ⟨totalWhere_congr fun r _ => ?_, totalWhere_congr fun r _ => ?_,
    countP_congr fun r _ => ?_⟩
  all_goals
    by_cases h : r.principal = p
    · simp [contribution, activeFor, expiredFor, h, hrow r h, and_comm]
    · simp [contribution, activeFor, expiredFor, h]

theorem reclaimSummaries_eq (ps : List Principal) (now : Timestamp) (t : Tables) :
    reclaimSummaries ps now t = (summaryKeys ps now t).map (summaryOf t now) := by
  refine map_congr_left fun p hp => ?_
  obtain ⟨hmem, -⟩ := mem_summaryKeys.mp hp
  simp only [summaryOf, ReservationReclaimSummary.mk.injEq, true_and, totalWhere_filter,
    filter_filter, ← countP_eq_length_filter, expiredTotal, expiredCount]
  refine ⟨totalWhere_congr fun r _ => ?_, countP_congr fun r _ => ?_⟩
  all_goals
    by_cases h : r.principal = p
    · subst h
      simp [contribution, expiredFor, reclaimedRow, hmem]
    · simp [contribution, expiredFor, h]

end BalanceReservation

/-! ## Aggregates of a valid database -/

namespace Database

open BalanceReservation

variable (db : Database) (now : Timestamp) (p : Principal)

theorem amount_nonneg {r : BalanceReservation} (h : r ∈ db.balanceReservations) : 0 ≤ r.amount :=
  (db.reservation_check h).1

theorem activeTotal_nonneg : 0 ≤ db.activeTotal p :=
  totalWhere_nonneg fun _ h _ => db.amount_nonneg h

theorem expiredTotal_nonneg : 0 ≤ db.expiredTotal now p :=
  totalWhere_nonneg fun _ h _ => db.amount_nonneg h

theorem expiredTotal_le_activeTotal : db.expiredTotal now p ≤ db.activeTotal p :=
  totalWhere_le (fun r _ h => by
      simp only [expiredFor, decide_eq_true_eq] at h
      simp [activeFor, h.1, h.2.1])
    fun _ h => db.amount_nonneg h

end Database

theorem Tables.expiredTotal_eq_zero {t : Tables} {now : Timestamp} {p : Principal}
    (h : t.expiredCount now p = 0) : t.expiredTotal now p = 0 :=
  totalWhere_eq_zero fun r member hr => by
    have := countP_eq_zero.mp h r member
    exact absurd hr this

/-! ## The loops in closed form -/

namespace BalanceReservation

variable (db : Database) (now : Timestamp)

/-- The scan never fails on a valid database: amounts are nonnegative, so no aggregate is. -/
theorem scanCandidates_eq :
    ∀ (keys : List Principal) (totals : ActiveTotals),
      scanCandidates (keys.map (candidateOf db.toTables now)) totals =
        .ok (fun p => if p ∈ keys then some (db.activeTotal p) else totals p,
          (keys.filter fun p => decide (0 < db.expiredCount now p)).map
            (summaryOf db.toTables now)) := by
  intro keys
  induction keys with
  | nil => intro totals; simp [scanCandidates]
  | cons k rest ih =>
    intro totals
    have hcheck : ¬ (db.activeTotal k < 0 ∨ db.expiredTotal now k < 0 ∨
        db.activeTotal k < db.expiredTotal now k) := by
      have h₁ := db.activeTotal_nonneg k
      have h₂ := db.expiredTotal_nonneg now k
      have h₃ := db.expiredTotal_le_activeTotal now k
      omega
    have htotals : (fun p => if p ∈ rest then some (db.activeTotal p)
          else Function.update totals k (some (db.activeTotal k)) p) =
        fun p => if p ∈ k :: rest then some (db.activeTotal p) else totals p := by grind
    simp only [map_cons, scanCandidates]
    rw [show (candidateOf db.toTables now k).activeReserved = db.activeTotal k from rfl,
      show (candidateOf db.toTables now k).expiredAmount = db.expiredTotal now k from rfl,
      show (candidateOf db.toTables now k).expiredCount = db.expiredCount now k from rfl,
      show (candidateOf db.toTables now k).principal = k from rfl, if_neg hcheck, ih, htotals]
    by_cases hcount : 0 < db.expiredCount now k
    · simp [hcount, summaryOf]
    · simp [hcount]

theorem find?_summaryOf (t : Tables) {keys : List Principal} {p : Principal} :
    (keys.map (summaryOf t now)).find? (fun s => decide (s.principal = p)) =
      if p ∈ keys then some (summaryOf t now p) else none := by
  induction keys with
  | nil => rfl
  | cons k rest ih => grind [summaryOf]

theorem matchSummaries_eq (t : Tables) {keys : List Principal} :
    ∀ (expected : List Principal) (n : Nat) (totals : ActiveTotals),
      (∀ p ∈ expected, p ∈ keys) → expected.Nodup →
      (∀ p ∈ expected, totals p = some (t.activeTotal p)) →
      matchSummaries (keys.map (summaryOf t now)) (expected.map (summaryOf t now)) n totals =
        .ok (n + (expected.map (t.expiredCount now)).sum,
          fun p => if p ∈ expected then some (t.activeTotal p - t.expiredTotal now p)
            else totals p) := by
  intro expected
  induction expected with
  | nil => intro n totals _ _ _; simp [matchSummaries]
  | cons e rest ih =>
    intro n totals hkeys hnodup htotals
    obtain ⟨hfresh, hrest⟩ := nodup_cons.mp hnodup
    have he := hkeys e mem_cons_self
    simp only [map_cons, matchSummaries]
    rw [show (summaryOf t now e).principal = e from rfl, find?_summaryOf, if_pos he,
      htotals e mem_cons_self]
    simp only [ne_eq, not_true_eq_false, or_self, if_false]
    rw [ih _ _ (fun p hp => hkeys p (mem_cons_of_mem _ hp)) hrest fun p hp => by
      have hne : p ≠ e := fun h => hfresh (h ▸ hp)
      rw [Function.update_of_ne hne, htotals p (mem_cons_of_mem _ hp)]]
    refine congrArg Except.ok (Prod.ext ?_ ?_)
    · simp [summaryOf, Nat.add_assoc]
    · grind [summaryOf]

end BalanceReservation

/-! ## Writes that keep the constraints -/

namespace Tables

theorem Valid.updateBalance {t : Tables} (h : t.Valid) {p : Principal}
    {f : UserBalance → UserBalance} (hf : ∀ b, (f b).principal = b.principal)
    (hcheck : ∀ b ∈ t.userBalances, b.principal = p → (f b).Check) :
    (t.updateBalance p f).Valid := by
  refine ⟨h.1, ⟨?_, ?_⟩, h.2.2⟩
  · change (map UserBalance.principal (updateWhere _ f t.userBalances)).Nodup
    rw [map_updateWhere fun b _ _ => hf b]
    exact h.2.1.1
  · intro b member
    obtain ⟨b₀, member₀, rfl⟩ := mem_updateWhere.mp member
    have h₀ := h.2.1.2 b₀ member₀
    split
    · rename_i hp
      exact ⟨hcheck b₀ member₀ (of_decide_eq_true hp), by rw [hf]; exact h₀.2⟩
    · exact h₀

theorem Valid.expireReservations {t : Tables} (h : t.Valid) (ps : List Principal)
    (now : Timestamp) : (t.expireReservations ps now).Valid := by
  refine ⟨h.1, h.2.1, ⟨?_, ?_, ?_⟩, h.2.2.2⟩
  · change (map requestId (updateWhere _ _ t.balanceReservations)).Nodup
    rw [map_updateWhere (f := expire) fun r _ _ => rfl]
    exact h.2.2.1.1
  · change (filterMap usageLogId
      (updateWhere _ _ t.balanceReservations)).Nodup
    rw [filterMap_updateWhere (f := expire) fun r _ _ => rfl]
    exact h.2.2.1.2.1
  · intro r member
    obtain ⟨r₀, member₀, rfl⟩ := mem_updateWhere.mp member
    obtain ⟨⟨hamount, hrelease, hsettle⟩, hfk⟩ := h.2.2.1.2.2 r₀ member₀
    split
    · rename_i hr
      obtain ⟨-, hactive, -⟩ := of_decide_eq_true hr
      have hnr := hrelease.2 (by simp [hactive])
      have hns := hsettle.2 (by simp [hactive])
      exact ⟨⟨hamount, ⟨by simp [expire], fun _ => hnr⟩,
        ⟨by simp [expire], fun _ => hns⟩⟩, hfk⟩
    · exact ⟨⟨hamount, hrelease, hsettle⟩, hfk⟩

end Tables

/-! ## The closed form -/

/-- **What a successful reclamation of the principals `ps` does**: their expired active
reservations become `expired`, and their wallets get the expired totals back. -/
def Tables.reclaim (ps : List Principal) (now : Timestamp) (t : Tables) : Tables :=
  { t with
    userBalances :=
      updateWhere (fun b => decide (b.principal ∈ ps))
        (fun b => b.unhold (t.expiredTotal now b.principal)) t.userBalances
    balanceReservations :=
      updateWhere (reclaimedRow ps now) expire
        t.balanceReservations }

namespace Tables

variable {t : Tables} {ps : List Principal} {now : Timestamp} {p : Principal}

theorem reclaim_of_none (h : ∀ p ∈ ps, t.expiredCount now p = 0) : t.reclaim ps now = t := by
  have hbalances : updateWhere (fun b : UserBalance => decide (b.principal ∈ ps))
      (fun b => b.unhold (t.expiredTotal now b.principal)) t.userBalances = t.userBalances :=
    updateWhere_of_forall_eq fun b _ hb => by
      rw [expiredTotal_eq_zero (h _ (of_decide_eq_true hb)), UserBalance.unhold_zero]
  have hreservations : updateWhere (reclaimedRow ps now)
      expire t.balanceReservations = t.balanceReservations :=
    updateWhere_of_forall_eq fun r member hr => by
      obtain ⟨hps, hactive, hexp⟩ := of_decide_eq_true hr
      have hnone := countP_eq_zero.mp (h _ hps) r member
      exact absurd (by simp [expiredFor, hactive, hexp]) hnone
  rw [reclaim, hbalances, hreservations]

theorem reclaim_nil : t.reclaim [] now = t := reclaim_of_none (by simp)

theorem balance?_reclaim :
    (t.reclaim ps now).balance? p =
      (t.balance? p).map fun b => if p ∈ ps then b.unhold (t.expiredTotal now p) else b := by
  have hkey (b : UserBalance) (_ : decide (b.principal ∈ ps) = true) :
      (b.unhold (t.expiredTotal now b.principal)).principal = b.principal := rfl
  rw [balance?, reclaim, lookup_updateWhere hkey, balance?]
  cases h : lookup UserBalance.principal p t.userBalances with
  | none => rfl
  | some b => simp [key_of_lookup h]

theorem activeTotal_reclaim (hp : p ∈ ps) :
    (t.reclaim ps now).activeTotal p + t.expiredTotal now p = t.activeTotal p := by
  refine totalWhere_map_add fun r _ => ?_
  by_cases hr : r.principal = p
  · subst hr
    by_cases hactive : r.status = .active <;> by_cases hexp : r.expiresAt ≤ now <;>
      simp [contribution, activeFor, expiredFor,
        reclaimedRow, expire, hp, hactive, hexp]
  · have hr' : (if reclaimedRow ps now r then r.expire else r).principal ≠ p := by
      split <;> exact hr
    simp [contribution, activeFor, expiredFor, hr, hr']

theorem activeTotal_reclaim_of_not_mem (hp : p ∉ ps) :
    (t.reclaim ps now).activeTotal p = t.activeTotal p := by
  refine totalWhere_map_eq fun r _ => ?_
  by_cases hr : r.principal = p
  · grind [reclaimedRow]
  · have hr' : (if reclaimedRow ps now r then r.expire else r).principal ≠ p := by
      split <;> exact hr
    simp [contribution, activeFor, hr, hr']

end Tables

/-! ## Giving the amounts back -/

namespace BalanceReservation

def reclaimedAmount (t : Tables) (now : Timestamp) (keys : List Principal) (p : Principal) : ℤ :=
  if p ∈ keys then t.expiredTotal now p else 0

variable {t : Tables} {now : Timestamp} {keys : List Principal}

theorem creditOne_eq {b : UserBalance} {db : Database} (locked : b ∈ db.userBalances)
    (covered : reclaimedAmount t now keys b.principal ≤ b.frozenBalance) :
    ∃ db₁ : Database,
      creditOne (keys.map (summaryOf t now)) b db =
        (.ok (b.unhold (reclaimedAmount t now keys b.principal)), db₁) ∧
      db₁.toTables = db.toTables.updateBalance b.principal
        (·.unhold (reclaimedAmount t now keys b.principal)) := by
  have hfound : db.balance? b.principal = some b := Database.balance?_eq_some.mpr ⟨locked, rfl⟩
  have hsame : db.toTables.updateBalance b.principal (·.unhold 0) = db.toTables :=
    updateBalance_of_eq UserBalance.unhold_zero
  rw [creditOne, find?_summaryOf]
  by_cases hk : b.principal ∈ keys
  · simp only [hk, if_true, reclaimedAmount] at covered ⊢
    by_cases hzero : (summaryOf t now b.principal).expiredAmount = 0
    · rw [if_pos hzero]
      have hzero' : t.expiredTotal now b.principal = 0 := hzero
      exact ⟨db, by simp [hzero'], by rw [hzero', hsame]⟩
    · rw [if_neg hzero]
      have hvalid : (db.toTables.updateBalance b.principal
          (·.unhold (t.expiredTotal now b.principal))).Valid := by
        refine db.valid.updateBalance (fun _ => rfl) fun b' member hb' => ?_
        have : b' = b := by
          have h' := Database.balance?_eq_some.mpr ⟨member, hb'⟩
          exact Option.some.inj (h'.symm.trans hfound)
        subst this
        obtain ⟨_, hrecharged, hconsumed⟩ := db.balance_check member
        exact ⟨by simpa [UserBalance.unhold] using covered, hrecharged, hconsumed⟩
      refine ⟨⟨_, hvalid⟩, ?_, rfl⟩
      have hwrite : updateBalanceReturning b.principal
          (·.unhold (t.expiredTotal now b.principal)) db =
          (.ok (some (b.unhold (t.expiredTotal now b.principal))), ⟨_, hvalid⟩) :=
        (updateBalanceReturning_eq_ok fun b' => b'.principal_unhold _).mpr
          ⟨rfl, by rw [hfound]; rfl⟩
      exact bind_of_ok hwrite
  · simp only [hk, if_false, reclaimedAmount]
    exact ⟨db, by simp, hsame.symm⟩

theorem creditReclaimed_eq :
    ∀ (balances : List UserBalance) (db : Database),
      (balances.map UserBalance.principal).Nodup →
      (∀ b ∈ balances, b ∈ db.userBalances) →
      (∀ b ∈ balances, reclaimedAmount t now keys b.principal ≤ b.frozenBalance) →
      ∃ db' : Database,
        creditReclaimed (keys.map (summaryOf t now)) balances db =
          (.ok (balances.map fun b => b.unhold (reclaimedAmount t now keys b.principal)), db') ∧
        db'.toTables = { db.toTables with
          userBalances := updateWhere
            (fun b => decide (b.principal ∈ balances.map UserBalance.principal))
            (fun b => b.unhold (reclaimedAmount t now keys b.principal)) db.userBalances } := by
  intro balances
  induction balances with
  | nil =>
    intro db _ _ _
    refine ⟨db, rfl, ?_⟩
    rw [updateWhere_of_forall_eq (by simp)]
  | cons b rest ih =>
    intro db distinct locked covered
    obtain ⟨hfresh, hrest⟩ := nodup_cons.mp distinct
    obtain ⟨db₁, hhead, htables₁⟩ :=
      creditOne_eq (t := t)
        (locked b mem_cons_self) (covered b mem_cons_self)
    have hlocked₁ : ∀ b' ∈ rest, b' ∈ db₁.userBalances := by
      intro b' member
      have hne : b'.principal ≠ b.principal := fun h =>
        hfresh (h ▸ mem_map_of_mem member)
      rw [htables₁]
      exact mem_updateWhere.mpr ⟨b', locked b' (mem_cons_of_mem _ member), by simp [hne]⟩
    obtain ⟨db₂, htail, htables₂⟩ := ih db₁ hrest hlocked₁
      fun b' member => covered b' (mem_cons_of_mem _ member)
    refine ⟨db₂, ?_, ?_⟩
    · rw [creditReclaimed, bind_of_ok hhead, bind_of_ok htail]
      rfl
    · rw [htables₂, htables₁]
      simp only [updateBalance, updateKey, updateWhere, map_map]
      congr 1
      refine map_congr_left fun x _ => ?_
      by_cases hx : x.principal = b.principal
      · simp_all
      · simp [hx]

end BalanceReservation

/-! ## The specification of a call -/

/-- The principals of the locked wallets whose frozen balance covers their active
reservations. -/
def coveredPrincipals (t : Tables) (balances : List UserBalance) : List Principal :=
  (balances.filter fun b => decide (t.activeTotal b.principal ≤ b.frozenBalance)).map
    UserBalance.principal

/-- **The outcome of a successful call** on the locked `balances`, of which the principals
`ps` were reclaimed. -/
structure Reclaimed (db : Database) (now : Timestamp) (balances : List UserBalance)
    (ps : List Principal) (st : ReclaimedBalanceState) (db' : Database) : Prop where
  tables : db'.toTables = db.toTables.reclaim ps now
  activeTotals : ∀ b ∈ balances, st.activeTotals b.principal = some (db'.activeTotal b.principal)
  balances : st.balances = balances.map fun b =>
    if b.principal ∈ ps then b.unhold (db.expiredTotal now b.principal) else b
  reclaimed : st.reclaimed = (ps.map (db.expiredCount now)).sum

/-- The locked wallets: distinct rows of the table. -/
structure Locked (db : Database) (balances : List UserBalance) : Prop where
  rows : ∀ b ∈ balances, b ∈ db.userBalances
  distinct : (balances.map UserBalance.principal).Nodup

/-- No principal outside the locked set, but with one of its users and one of its tenants,
owns an expired active reservation. -/
def NoOutsider (t : Tables) (now : Timestamp) (balances : List UserBalance) : Prop :=
  ∀ p : Principal, p.userId ∈ balances.map UserBalance.userId →
    p.tenantId ∈ balances.map UserBalance.tenantId →
    p ∉ balances.map UserBalance.principal → t.expiredCount now p = 0

namespace BalanceReservation

variable {db : Database} {now : Timestamp} {balances : List UserBalance}

def scannedTotals (t : Tables) (balances : List UserBalance) : ActiveTotals := fun p =>
  if p ∈ candidateKeys (balances.map UserBalance.userId) (balances.map UserBalance.tenantId) t
  then some (t.activeTotal p)
  else if p ∈ balances.map UserBalance.principal then some 0 else none

variable {t : Tables} {invalid : List Principal} {isolate : Bool} {p : Principal}

theorem mem_candidateKeys_of_mem {r : BalanceReservation}
    (hp : p ∈ balances.map UserBalance.principal) (member : r ∈ t.balanceReservations)
    (hr : activeFor p r) :
    p ∈ candidateKeys (balances.map UserBalance.userId) (balances.map UserBalance.tenantId) t := by
  obtain ⟨b, hb, rfl⟩ := mem_map.mp hp
  exact mem_candidateKeys.mpr
    ⟨⟨mem_map_of_mem hb, mem_map_of_mem hb⟩, r, member, hr⟩

theorem scannedTotals_of_mem (hp : p ∈ balances.map UserBalance.principal) :
    scannedTotals t balances p = some (t.activeTotal p) := by
  unfold scannedTotals
  split
  · rfl
  · rename_i hkeys
    refine congrArg some (totalWhere_eq_zero fun r member hr => ?_).symm
    exact absurd (mem_candidateKeys_of_mem hp member hr) hkeys

theorem invalidBalance_scanned {b : UserBalance} (hb : b ∈ balances) :
    invalidBalance (scannedTotals t balances) b =
      decide (b.frozenBalance < t.activeTotal b.principal) := by
  rw [invalidBalance, scannedTotals_of_mem (mem_map_of_mem hb)]
  rfl

theorem mem_invalidUserIds
    (h : invalidUserIds isolate (scannedTotals t balances) balances = .ok invalid) :
    p ∈ invalid ↔ ∃ b ∈ balances, b.frozenBalance < t.activeTotal b.principal ∧
      b.principal = p := by
  unfold invalidUserIds at h
  split at h
  · grind [invalidBalance_scanned]
  · split at h
    · cases h
    · grind [find?_eq_none.mp, invalidBalance_scanned]

theorem valid_eq_coveredPrincipals (distinct : (balances.map UserBalance.principal).Nodup)
    (h : invalidUserIds isolate (scannedTotals t balances) balances = .ok invalid) :
    (balances.map UserBalance.principal).filter (· ∉ invalid) = coveredPrincipals t balances := by
  rw [coveredPrincipals, filter_map]
  refine congrArg _ (filter_congr fun b hb => ?_)
  simp only [Function.comp, mem_invalidUserIds h, decide_eq_decide, not_exists, not_and]
  constructor
  · intro hnot
    exact le_of_not_gt fun hlt => hnot b hb hlt rfl
  · grind [inj_on_of_nodup_map]

/-- The principals of `expired_by_user`. -/
def expiredKeys (t : Tables) (now : Timestamp) (balances : List UserBalance) : List Principal :=
  (candidateKeys (balances.map UserBalance.userId) (balances.map UserBalance.tenantId) t).filter
    fun p => decide (0 < t.expiredCount now p)

theorem reclaimInner_scan (hne : balances ≠ []) :
    reclaimExpiredForLockedBalancesInner now balances isolate db =
      (lift (invalidUserIds isolate (scannedTotals db.toTables balances) balances) >>=
        fun invalid =>
          if (expiredKeys db.toTables now balances).map (summaryOf db.toTables now) = [] then
            pure ⟨balances, scannedTotals db.toTables balances, 0⟩
          else if (balances.map UserBalance.principal).filter (· ∉ invalid) = [] then
            pure ⟨balances, scannedTotals db.toTables balances, 0⟩
          else
            reclaimValidUsers now balances (scannedTotals db.toTables balances)
              ((balances.map UserBalance.principal).filter (· ∉ invalid))
              (((expiredKeys db.toTables now balances).map (summaryOf db.toTables now)).filter
                (·.principal ∉ invalid))) db := by
  have hscan : scanCandidates (reclaimCandidates (balances.map UserBalance.userId)
        (balances.map UserBalance.tenantId) now db.toTables)
        (fun p => if p ∈ balances.map UserBalance.principal then some 0 else none) =
      .ok (scannedTotals db.toTables balances,
        (expiredKeys db.toTables now balances).map (summaryOf db.toTables now)) := by
    rw [reclaimCandidates_eq]
    exact scanCandidates_eq db now _ _
  rw [reclaimExpiredForLockedBalancesInner, if_neg hne,
    bind_of_ok (read_eq_ok.mpr ⟨rfl, rfl⟩), bind_of_ok (lift_eq_ok.mpr ⟨hscan, rfl⟩)]

theorem reclaimInner_of_invalid {e : DbError} (hne : balances ≠ [])
    (hinv : invalidUserIds isolate (scannedTotals db.toTables balances) balances = .error e) :
    reclaimExpiredForLockedBalancesInner now balances isolate db = (.error e, db) := by
  rw [reclaimInner_scan hne, hinv]
  exact bind_of_error rfl

theorem reclaimInner_eq (hne : balances ≠ [])
    (distinct : (balances.map UserBalance.principal).Nodup)
    (hinv : invalidUserIds isolate (scannedTotals db.toTables balances) balances = .ok invalid) :
    reclaimExpiredForLockedBalancesInner now balances isolate db =
      if expiredKeys db.toTables now balances = [] ∨ coveredPrincipals db.toTables balances = []
      then (.ok ⟨balances, scannedTotals db.toTables balances, 0⟩, db)
      else reclaimValidUsers now balances (scannedTotals db.toTables balances)
        (coveredPrincipals db.toTables balances)
        (((expiredKeys db.toTables now balances).filter (· ∉ invalid)).map
          (summaryOf db.toTables now)) db := by
  rw [reclaimInner_scan hne, bind_of_ok (lift_eq_ok.mpr ⟨hinv, rfl⟩),
    valid_eq_coveredPrincipals distinct hinv, filter_map]
  simp only [map_eq_nil_iff]
  by_cases hexp : expiredKeys db.toTables now balances = []
  · rw [if_pos hexp, if_pos (.inl hexp)]
    rfl
  · by_cases hcov : coveredPrincipals db.toTables balances = []
    · rw [if_neg hexp, if_pos hcov, if_pos (.inr hcov)]
      rfl
    · rw [if_neg hexp, if_neg hcov, if_neg (by simp [hexp, hcov])]
      rfl

theorem mem_expiredKeys :
    p ∈ expiredKeys t now balances ↔
      p.userId ∈ balances.map UserBalance.userId ∧ p.tenantId ∈ balances.map UserBalance.tenantId ∧
        0 < t.expiredCount now p := by
  simp only [expiredKeys, mem_filter, mem_candidateKeys, decide_eq_true_eq, and_assoc]
  refine and_congr_right fun _ => and_congr_right fun _ => ⟨And.right, fun h => ⟨?_, h⟩⟩
  obtain ⟨r, member, hr⟩ := countP_pos_iff.mp h
  obtain ⟨hp, hactive, -⟩ := of_decide_eq_true hr
  exact ⟨r, member, by simp [activeFor, hp, hactive]⟩

theorem mem_coveredPrincipals :
    p ∈ coveredPrincipals t balances ↔
      ∃ b ∈ balances, t.activeTotal b.principal ≤ b.frozenBalance ∧ b.principal = p := by
  simp [coveredPrincipals, and_assoc]

theorem coveredPrincipals_nodup (distinct : (balances.map UserBalance.principal).Nodup) :
    (coveredPrincipals t balances).Nodup :=
  distinct.sublist (filter_sublist.map _)

theorem mem_map_principal_of_covered (hp : p ∈ coveredPrincipals t balances) :
    p ∈ balances.map UserBalance.principal := by
  obtain ⟨b, hb, -, rfl⟩ := mem_coveredPrincipals.mp hp
  exact mem_map_of_mem hb

section Expected

variable {isolate : Bool} {invalid : List Principal}

theorem mem_expected_of_mem_summaryKeys {t : Tables}
    (distinct : (balances.map UserBalance.principal).Nodup)
    (hinv : invalidUserIds isolate (scannedTotals t balances) balances = .ok invalid)
    {p : Principal} (hp : p ∈ summaryKeys (coveredPrincipals t balances) now t) :
    p ∈ (expiredKeys t now balances).filter (· ∉ invalid) := by
  obtain ⟨hcov, hcount⟩ := mem_summaryKeys.mp hp
  obtain ⟨b, hb, hle, rfl⟩ := mem_coveredPrincipals.mp hcov
  refine mem_filter.mpr ⟨mem_expiredKeys.mpr
    ⟨mem_map_of_mem hb, mem_map_of_mem hb, hcount⟩, ?_⟩
  simp only [decide_eq_true_eq, mem_invalidUserIds hinv, not_exists, not_and]
  intro b' hb' hlt heq
  have : b' = b := inj_on_of_nodup_map distinct hb' hb heq
  subst this
  exact absurd hlt (not_lt.mpr hle)

theorem mem_summaryKeys_of_mem_expected {t : Tables} (houtside : NoOutsider t now balances)
    (hinv : invalidUserIds isolate (scannedTotals t balances) balances = .ok invalid)
    {p : Principal} (hp : p ∈ (expiredKeys t now balances).filter (· ∉ invalid)) :
    p ∈ summaryKeys (coveredPrincipals t balances) now t := by
  obtain ⟨hexp, hvalid⟩ := mem_filter.mp hp
  obtain ⟨huser, htenant, hcount⟩ := mem_expiredKeys.mp hexp
  have hmem : p ∈ balances.map UserBalance.principal := by
    by_contra hnot
    exact absurd (houtside p huser htenant hnot) (Nat.pos_iff_ne_zero.mp hcount)
  obtain ⟨b, hb, rfl⟩ := mem_map.mp hmem
  refine mem_summaryKeys.mpr ⟨mem_coveredPrincipals.mpr ⟨b, hb, ?_, rfl⟩, hcount⟩
  by_contra hlt
  simp only [decide_eq_true_eq, mem_invalidUserIds hinv, not_exists, not_and] at hvalid
  exact hvalid b hb (not_le.mp hlt) rfl

theorem length_summaryKeys_eq_iff {t : Tables}
    (distinct : (balances.map UserBalance.principal).Nodup)
    (hinv : invalidUserIds isolate (scannedTotals t balances) balances = .ok invalid) :
    (summaryKeys (coveredPrincipals t balances) now t).length =
        ((expiredKeys t now balances).filter (· ∉ invalid)).length ↔
      ∀ p ∈ (expiredKeys t now balances).filter (· ∉ invalid),
        p ∈ summaryKeys (coveredPrincipals t balances) now t := by
  have hsub : (summaryKeys (coveredPrincipals t balances) now t).Subperm
      ((expiredKeys t now balances).filter (· ∉ invalid)) :=
    subperm_of_subset summaryKeys_nodup
      fun _ hp => mem_expected_of_mem_summaryKeys distinct hinv hp
  have hnodup : ((expiredKeys t now balances).filter (· ∉ invalid)).Nodup :=
    ((groupKeys_nodup principal _).filter _).filter _
  constructor
  · intro hlen p hp
    exact (hsub.perm_of_length_le hlen.ge).mem_iff.mpr hp
  · intro hall
    exact le_antisymm hsub.length_le (subperm_of_subset hnodup hall).length_le

theorem reclaimedAmount_summaryKeys (t : Tables) (p : Principal) :
    reclaimedAmount t now (summaryKeys (coveredPrincipals t balances) now t) p =
      if p ∈ coveredPrincipals t balances then t.expiredTotal now p else 0 := by
  unfold reclaimedAmount
  by_cases hp : p ∈ coveredPrincipals t balances
  · simp_all [mem_summaryKeys, expiredTotal_eq_zero, Nat.eq_zero_of_not_pos]
  · simp [mem_summaryKeys, hp]

theorem sum_expiredCount_summaryKeys (t : Tables) {ps : List Principal} (hnodup : ps.Nodup) :
    ((summaryKeys ps now t).map (t.expiredCount now)).sum = (ps.map (t.expiredCount now)).sum := by
  have hperm : (summaryKeys ps now t).Perm (ps.filter fun p => decide (0 < t.expiredCount now p)) :=
    (perm_ext_iff_of_nodup summaryKeys_nodup (hnodup.filter _)).mpr fun p => by
      simp [mem_summaryKeys]
  rw [(hperm.map _).sum_eq]
  clear hperm hnodup
  induction ps with
  | nil => rfl
  | cons p rest ih =>
    by_cases hp : 0 < t.expiredCount now p
    · simp [hp, ih]
    · simp [ih, Nat.eq_zero_of_not_pos hp]

theorem reclaimValidUsers_of {totals totals' : ActiveTotals} {valid : List Principal}
    {expected : List ReservationReclaimSummary} {n : Nat}
    {updated : List UserBalance} {db₁ db' : Database}
    (hmark : exec (expireReservations valid now) db = (.ok (), db₁))
    (hlength : (summaryKeys valid now db.toTables).length = expected.length)
    (hmatch : matchSummaries ((summaryKeys valid now db.toTables).map (summaryOf db.toTables now))
      expected 0 totals = .ok (n, totals'))
    (hcredit : creditReclaimed
      ((summaryKeys valid now db.toTables).map (summaryOf db.toTables now)) balances db₁ =
        (.ok updated, db')) :
    reclaimValidUsers now balances totals valid expected db = (.ok ⟨updated, totals', n⟩, db') := by
  rw [reclaimValidUsers, bind_of_ok (read_eq_ok.mpr ⟨rfl, rfl⟩), reclaimSummaries_eq,
    bind_of_ok hmark, bind_of_ok (failIf_of_not (by simpa using hlength)),
    bind_of_ok (lift_eq_ok.mpr ⟨hmatch, rfl⟩)]
  dsimp only
  rw [bind_of_ok hcredit]
  rfl

theorem reclaimValidUsers_ok (hlocked : Locked db balances)
    (hinv : invalidUserIds isolate (scannedTotals db.toTables balances) balances = .ok invalid)
    (hall : ∀ p ∈ (expiredKeys db.toTables now balances).filter (· ∉ invalid),
      p ∈ summaryKeys (coveredPrincipals db.toTables balances) now db.toTables) :
    ∃ st db', reclaimValidUsers now balances (scannedTotals db.toTables balances)
        (coveredPrincipals db.toTables balances)
        (((expiredKeys db.toTables now balances).filter (· ∉ invalid)).map
          (summaryOf db.toTables now)) db = (.ok st, db') ∧
      Reclaimed db now balances (coveredPrincipals db.toTables balances) st db' := by
  have hmatch := matchSummaries_eq now db.toTables _ 0 (scannedTotals db.toTables balances) hall
    (((groupKeys_nodup principal _).filter _).filter _) fun p hp => scannedTotals_of_mem
      (mem_map_principal_of_covered (mem_summaryKeys.mp (hall p hp)).1)
  have hlength := (length_summaryKeys_eq_iff hlocked.distinct hinv).mpr hall
  have hmark := exec_of_valid
    (db.valid.expireReservations (coveredPrincipals db.toTables balances) now)
  -- the wallets are untouched by the marking statement, so they are still the locked rows
  obtain ⟨db', hcredit, htables⟩ :=
    creditReclaimed_eq (t := db.toTables) balances
      ⟨_, db.valid.expireReservations (coveredPrincipals db.toTables balances) now⟩
      hlocked.distinct hlocked.rows fun b hb => by
        rw [reclaimedAmount_summaryKeys]
        split
        · rename_i hmem
          obtain ⟨b', hb', hle, heq⟩ := mem_coveredPrincipals.mp hmem
          have : b' = b := inj_on_of_nodup_map hlocked.distinct hb' hb heq
          subst this
          exact (db.expiredTotal_le_activeTotal now b'.principal).trans hle
        · exact (db.balance_check (hlocked.rows b hb)).1
  simp only [reclaimedAmount_summaryKeys] at hcredit htables
  refine ⟨_, db', reclaimValidUsers_of hmark (by simpa using hlength) hmatch hcredit, ?_⟩
  have hperm : ((expiredKeys db.toTables now balances).filter (· ∉ invalid)).Perm
      (summaryKeys (coveredPrincipals db.toTables balances) now db.toTables) :=
    (perm_ext_iff_of_nodup (((groupKeys_nodup principal _).filter _).filter _)
      summaryKeys_nodup).mpr fun p =>
        ⟨hall p, mem_expected_of_mem_summaryKeys hlocked.distinct hinv⟩
  have htables' : db'.toTables =
      db.toTables.reclaim (coveredPrincipals db.toTables balances) now := by
    rw [htables, reclaim, expireReservations]
    congr 1
    refine map_congr_left fun b _ => ?_
    by_cases hcov : b.principal ∈ coveredPrincipals db.toTables balances
    · simp [hcov, mem_map_principal_of_covered hcov]
    · simp [hcov]
  refine ⟨htables', fun b hb => ?_, ?_, ?_⟩
  · -- a principal that was not expected is uncovered or has nothing expired
    have hkeys := (hperm.mem_iff (a := b.principal)).trans mem_summaryKeys
    dsimp only
    rw [htables', if_congr hkeys rfl rfl, scannedTotals_of_mem (mem_map_of_mem hb)]
    by_cases hcov : b.principal ∈ coveredPrincipals db.toTables balances
    · have hmove : (db.toTables.reclaim (coveredPrincipals db.toTables balances) now).activeTotal
            b.principal + db.expiredTotal now b.principal = db.activeTotal b.principal :=
        activeTotal_reclaim hcov
      by_cases hcount : 0 < db.expiredCount now b.principal
      · rw [if_pos ⟨hcov, hcount⟩, ← hmove, add_sub_cancel_right]
      · simp_all [expiredTotal_eq_zero, Nat.eq_zero_of_not_pos]
    · rw [if_neg fun h => hcov h.1, activeTotal_reclaim_of_not_mem hcov]
  · refine map_congr_left fun b _ => ?_
    split <;> simp
  · dsimp only
    rw [Nat.zero_add, (hperm.map _).sum_eq,
      sum_expiredCount_summaryKeys _ (coveredPrincipals_nodup hlocked.distinct)]

theorem reclaimValidUsers_error {totals : ActiveTotals}
    (distinct : (balances.map UserBalance.principal).Nodup)
    (hinv : invalidUserIds isolate (scannedTotals db.toTables balances) balances = .ok invalid)
    {p : Principal} (hp : p ∈ (expiredKeys db.toTables now balances).filter (· ∉ invalid))
    (hnot : p ∉ summaryKeys (coveredPrincipals db.toTables balances) now db.toTables)
    {st : ReclaimedBalanceState} {db' : Database} :
    reclaimValidUsers now balances totals (coveredPrincipals db.toTables balances)
      (((expiredKeys db.toTables now balances).filter (· ∉ invalid)).map
        (summaryOf db.toTables now)) db ≠ (.ok st, db') := by
  intro h
  simp only [reclaimValidUsers, inv] at h
  obtain ⟨summaries, rfl, _, db₁, -, _, hlen, -⟩ := h
  rw [reclaimSummaries_eq] at hlen
  simp only [length_map, not_not] at hlen
  exact hnot ((length_summaryKeys_eq_iff distinct hinv).mp hlen p hp)

end Expected

/-! ## The three statements about a call -/

theorem invalidUserIds_of_covered
    (h : isolate = true ∨ ∀ b ∈ balances, t.activeTotal b.principal ≤ b.frozenBalance) :
    ∃ invalid, invalidUserIds isolate (scannedTotals t balances) balances = .ok invalid := by
  unfold invalidUserIds
  rcases h with rfl | hcovered
  · exact ⟨_, rfl⟩
  · split
    · exact ⟨_, rfl⟩
    · simp_all [find?_eq_none.mpr, invalidBalance_scanned]

theorem invalidUserIds_ok_covered
    (h : invalidUserIds false (scannedTotals t balances) balances = .ok invalid) :
    ∀ b ∈ balances, t.activeTotal b.principal ≤ b.frozenBalance := by
  intro b hb
  by_contra hlt
  have hmem := (mem_invalidUserIds h).mpr ⟨b, hb, not_le.mp hlt, rfl⟩
  unfold invalidUserIds at h
  simp only [Bool.false_eq_true, if_false] at h
  split at h
  · cases h
  · cases h
    simp at hmem

end BalanceReservation

open BalanceReservation

variable {db : Database} {now : Timestamp} {balances : List UserBalance}

theorem Reclaimed.of_none {ps : List Principal} {totals : ActiveTotals}
    (hnone : ∀ p ∈ ps, db.expiredCount now p = 0)
    (htotals : ∀ b ∈ balances, totals b.principal = some (db.activeTotal b.principal)) :
    Reclaimed db now balances ps ⟨balances, totals, 0⟩ db where
  tables := (reclaim_of_none hnone).symm
  activeTotals := htotals
  balances := by
    conv_lhs => rw [← map_id balances]
    refine map_congr_left fun b _ => ?_
    split
    · rw [expiredTotal_eq_zero (hnone _ ‹_›), UserBalance.unhold_zero, id]
    · rfl
  reclaimed := by
    rw [map_congr_left hnone]
    simp

/-- The two early returns: nothing is expired, or no wallet is covered. -/
theorem Reclaimed.early
    (h : expiredKeys db.toTables now balances = [] ∨ coveredPrincipals db.toTables balances = []) :
    Reclaimed db now balances (coveredPrincipals db.toTables balances)
      ⟨balances, scannedTotals db.toTables balances, 0⟩ db := by
  refine Reclaimed.of_none (fun p hp => ?_) fun b hb =>
    scannedTotals_of_mem (mem_map_of_mem hb)
  rcases h with hexp | hcov
  · by_contra hcount
    obtain ⟨b, hb, -, rfl⟩ := mem_coveredPrincipals.mp hp
    have hmem : b.principal ∈ expiredKeys db.toTables now balances :=
      mem_expiredKeys.mpr ⟨mem_map_of_mem hb, mem_map_of_mem hb,
        Nat.pos_of_ne_zero hcount⟩
    simp [hexp] at hmem
  · simp [hcov] at hp

variable {st : ReclaimedBalanceState} {b : UserBalance} {db' : Database}

/-- **Every success is the closed form**, on the covered wallets of the locked set; without
isolation all of them are covered. -/
theorem reclaimInner_inversion {isolate : Bool} (hlocked : Locked db balances)
    (h : reclaimExpiredForLockedBalancesInner now balances isolate db = (.ok st, db')) :
    Reclaimed db now balances (coveredPrincipals db.toTables balances) st db' ∧
      (isolate = false → ∀ b ∈ balances, db.activeTotal b.principal ≤ b.frozenBalance) := by
  by_cases hne : balances = []
  · subst hne
    rw [reclaimExpiredForLockedBalancesInner, if_pos rfl] at h
    cases h
    exact ⟨Reclaimed.of_none (by simp [coveredPrincipals]) (by simp), by simp⟩
  · cases hinv : invalidUserIds isolate (scannedTotals db.toTables balances) balances with
    | error e =>
      rw [reclaimInner_of_invalid hne hinv] at h
      cases h
    | ok invalid =>
      refine ⟨?_, fun hiso => invalidUserIds_ok_covered (hiso ▸ hinv)⟩
      rw [reclaimInner_eq hne hlocked.distinct hinv] at h
      split at h
      · rename_i hearly
        cases h
        exact Reclaimed.early hearly
      · by_cases hall : ∀ p ∈ (expiredKeys db.toTables now balances).filter (· ∉ invalid),
            p ∈ summaryKeys (coveredPrincipals db.toTables balances) now db.toTables
        · obtain ⟨st', db₁, hrun, hout⟩ := reclaimValidUsers_ok hlocked hinv hall
          rw [hrun] at h
          cases h
          exact hout
        · grind [reclaimValidUsers_error, Reclaimed, Locked]

/-- **A call succeeds** when invalid wallets are isolated or absent and no outsider has
expired reservations. -/
theorem reclaimInner_succeeds {isolate : Bool} (hlocked : Locked db balances)
    (hcovered : isolate = true ∨ ∀ b ∈ balances, db.activeTotal b.principal ≤ b.frozenBalance)
    (houtside : NoOutsider db.toTables now balances) :
    ∃ st db', reclaimExpiredForLockedBalancesInner now balances isolate db = (.ok st, db') := by
  by_cases hne : balances = []
  · rw [reclaimExpiredForLockedBalancesInner, if_pos hne]
    exact ⟨_, _, rfl⟩
  · obtain ⟨invalid, hinv⟩ := invalidUserIds_of_covered hcovered
    rw [reclaimInner_eq hne hlocked.distinct hinv]
    split
    · exact ⟨_, _, rfl⟩
    · obtain ⟨st, db', hrun, -⟩ := reclaimValidUsers_ok hlocked hinv
        fun p hp => mem_summaryKeys_of_mem_expected houtside hinv hp
      exact ⟨st, db', hrun⟩

/-- **A call fails** when some wallet is covered and an outsider has an expired reservation. -/
theorem reclaimInner_fails {isolate : Bool} (hlocked : Locked db balances)
    (hcov : coveredPrincipals db.toTables balances ≠ [])
    (houtside : ¬ NoOutsider db.toTables now balances) :
    reclaimExpiredForLockedBalancesInner now balances isolate db ≠ (.ok st, db') := by
  simp only [NoOutsider, not_forall] at houtside
  obtain ⟨p, huser, htenant, hnot, hcount⟩ := houtside
  have hne : balances ≠ [] := by
    rintro rfl
    simp at huser
  have hexp : p ∈ expiredKeys db.toTables now balances :=
    mem_expiredKeys.mpr ⟨huser, htenant, Nat.pos_of_ne_zero hcount⟩
  intro h
  cases hinv : invalidUserIds isolate (scannedTotals db.toTables balances) balances with
  | error e =>
    rw [reclaimInner_of_invalid hne hinv] at h
    cases h
  | ok invalid =>
    have hvalid : p ∉ invalid := fun hp => by
      obtain ⟨b, hb, -, rfl⟩ := (mem_invalidUserIds hinv).mp hp
      exact hnot (mem_map_of_mem hb)
    rw [reclaimInner_eq hne hlocked.distinct hinv,
      if_neg (by simp [ne_nil_of_mem hexp, hcov])] at h
    refine absurd h (reclaimValidUsers_error hlocked.distinct hinv (p := p)
      (mem_filter.mpr ⟨hexp, by simpa using hvalid⟩) fun hp => ?_)
    exact hnot (mem_map_principal_of_covered (mem_summaryKeys.mp hp).1)

/-! ## One locked wallet -/

theorem Locked.singleton (hb : b ∈ db.userBalances) : Locked db [b] :=
  ⟨by simpa using hb, by simp⟩

/-- One wallet has no outsiders: the product of its user and its tenant is the wallet. -/
theorem noOutsider_singleton (t : Tables) (b : UserBalance) : NoOutsider t now [b] := by
  intro p huser htenant hnot
  simp only [map_cons, map_nil, mem_singleton] at huser htenant hnot
  exact absurd (by cases p; simp_all [UserBalance.principal]) hnot

theorem reclaimOne_inversion (hb : b ∈ db.userBalances)
    (h : reclaimExpiredForLockedBalances now [b] db = (.ok st, db')) :
    db'.toTables = db.toTables.reclaim [b.principal] now ∧
      st.balances = [b.unhold (db.expiredTotal now b.principal)] ∧
      st.activeTotals b.principal = some (db'.activeTotal b.principal) ∧
      db.activeTotal b.principal ≤ b.frozenBalance := by
  obtain ⟨hout, hcovered⟩ := reclaimInner_inversion (Locked.singleton hb) h
  have hle := hcovered rfl b (by simp)
  have hps : coveredPrincipals db.toTables [b] = [b.principal] := by
    simp [coveredPrincipals, hle]
  rw [hps] at hout
  exact ⟨hout.tables, by simpa using hout.balances, hout.activeTotals b (by simp), hle⟩

theorem reclaimOne_succeeds (now : Timestamp) (hb : b ∈ db.userBalances)
    (hcovered : db.activeTotal b.principal ≤ b.frozenBalance) :
    ∃ st db', reclaimExpiredForLockedBalances now [b] db = (.ok st, db') ∧
      db'.toTables = db.toTables.reclaim [b.principal] now ∧
      st.reclaimed = db.expiredCount now b.principal := by
  obtain ⟨st, db', hrun⟩ := reclaimInner_succeeds (Locked.singleton hb)
    (.inr (by simpa using hcovered)) (noOutsider_singleton db.toTables b)
  have hps : coveredPrincipals db.toTables [b] = [b.principal] := by
    simp [coveredPrincipals, hcovered]
  obtain ⟨hout, -⟩ := reclaimInner_inversion (Locked.singleton hb) hrun
  rw [hps] at hout
  exact ⟨st, db', hrun, hout.tables, by simpa using hout.reclaimed⟩

theorem reclaimOne_transient {e : DbError} (hb : b ∈ db.userBalances)
    (h : reclaimExpiredForLockedBalances now [b] db = (.error e, db')) : e.Transient := by
  cases hinv : invalidUserIds false (scannedTotals db.toTables [b]) [b] with
  | error e' =>
    rw [reclaimExpiredForLockedBalances, reclaimInner_of_invalid (by simp) hinv] at h
    cases h
    unfold invalidUserIds at hinv
    rw [if_neg (by simp)] at hinv
    split at hinv <;> cases hinv
    exact ⟨rfl, rfl⟩
  | ok invalid =>
    have hcovered := invalidUserIds_ok_covered hinv b (by simp)
    obtain ⟨st, db₁, hrun, -⟩ := reclaimOne_succeeds now hb hcovered
    rw [hrun] at h
    cases h

/-! ## Reclamation never reports a lack of funds -/

namespace BalanceReservation

theorem scanCandidates_error {candidates : List ReservationReclaimCandidate} :
    ∀ {totals : ActiveTotals} {e : DbError},
      scanCandidates candidates totals = .error e → e.NotInsufficient := by
  induction candidates with
  | nil => intro totals e h; cases h
  | cons c rest ih =>
    intro totals e h
    unfold scanCandidates at h
    split at h
    · cases h
      rfl
    · grind

theorem invalidUserIds_error {isolate : Bool} {totals : ActiveTotals} {balances : List UserBalance}
    {e : DbError} (h : invalidUserIds isolate totals balances = .error e) : e.NotInsufficient := by
  unfold invalidUserIds at h
  split at h
  · cases h
  · split at h <;> cases h
    rfl

theorem matchSummaries_error {summaries expected : List ReservationReclaimSummary} :
    ∀ {n : Nat} {totals : ActiveTotals} {e : DbError},
      matchSummaries summaries expected n totals = .error e → e.NotInsufficient := by
  induction expected with
  | nil => intro n totals e h; cases h
  | cons s rest ih =>
    intro n totals e h
    unfold matchSummaries at h
    dsimp only at h
    split at h
    · cases h
      rfl
    · split at h
      · cases h
        rfl
      · split at h
        · cases h
          rfl
        · exact ih h

theorem creditOne_failsOnly (summaries : List ReservationReclaimSummary) (b : UserBalance) :
    (creditOne summaries b).FailsOnly DbError.NotInsufficient := by
  unfold creditOne
  split
  · exact .pure _
  · split
    · exact .pure _
    · exact .bind (updateBalanceReturning_failsOnly .violation _ _) fun _ => .okOr rfl

theorem creditReclaimed_failsOnly (summaries : List ReservationReclaimSummary) :
    ∀ balances, (creditReclaimed summaries balances).FailsOnly DbError.NotInsufficient := by
  intro balances
  induction balances with
  | nil => exact .pure _
  | cons b rest ih =>
    exact .bind (creditOne_failsOnly summaries b) fun _ => .bind ih fun _ => .pure _

theorem reclaimValidUsers_failsOnly (now : Timestamp) (balances : List UserBalance)
    (totals : ActiveTotals) (valid : List Principal) (expected : List ReservationReclaimSummary) :
    (reclaimValidUsers now balances totals valid expected).FailsOnly DbError.NotInsufficient :=
  .bind (.read _) fun _ => .bind (exec_failsOnly .violation _) fun _ => .bind (.failIf rfl) fun _ =>
    .bind (.lift fun _ h => matchSummaries_error h) fun _ =>
      .bind (creditReclaimed_failsOnly _ _) fun _ => .pure _

end BalanceReservation

theorem reclaimInner_failsOnly (now : Timestamp) (balances : List UserBalance) (isolate : Bool) :
    (reclaimExpiredForLockedBalancesInner now balances isolate).FailsOnly
      DbError.NotInsufficient := by
  unfold reclaimExpiredForLockedBalancesInner
  split
  · exact .pure _
  · refine .bind (.read _) fun _ => .bind (.lift fun _ h => scanCandidates_error h) fun scanned =>
      .bind (.lift fun _ h => invalidUserIds_error h) fun _ => ?_
    split
    · exact .pure _
    · dsimp only
      split
      · exact .pure _
      · exact reclaimValidUsers_failsOnly ..

end KeyCompute
