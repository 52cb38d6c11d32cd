import KeyCompute.Wallet.Balance

/-!
# The background sweep and batches of locked wallets

`reclaim_expired` locks a batch of wallets that have something to reclaim and hands it to the
isolating form of the reclamation.

The lock query aggregates reservations per user, while wallets are per `(tenant, user)`.  A sweep
that may take every wallet leaves no expired reservation behind exactly when each wallet with
expired reservations also covers the reservations its user holds in the other tenants.
-/

namespace KeyCompute

open Relational BalanceReservation Tables List

/-! ## The model of the source -/

/-- The sum of a user's active reservations over all tenants. -/
def Tables.userActiveTotal (t : Tables) (userId : Uuid) : ℤ :=
  totalWhere (fun r => decide (r.userId = userId ∧ r.status = .active)) amount
    t.balanceReservations

namespace BalanceReservation

/-- The `WHERE` clause of the sweep's lock query. -/
def sweepable (now : Timestamp) (t : Tables) (b : UserBalance) : Bool :=
  (t.balanceReservations.any fun r =>
    decide (r.userId = b.userId ∧ r.status = .active ∧ r.expiresAt ≤ now)) &&
  decide (t.userActiveTotal b.userId ≤ b.frozenBalance)

/-- `ORDER BY user_id`. -/
def orderByUser (rows : List UserBalance) : List UserBalance :=
  rows.insertionSort fun a b => a.userId.bits.toNat ≤ b.userId.bits.toNat

/-- The wallets the sweep locks; `locked` are the wallets other transactions hold, which
`SKIP LOCKED` passes over. -/
def sweepBatch (now : Timestamp) (batchSize : Nat) (locked : List Principal) (t : Tables) :
    List UserBalance :=
  (orderByUser (t.userBalances.filter fun b => sweepable now t b && b.principal ∉ locked)).take
    batchSize

def reclaimExpired (now : Timestamp) (batchSize : Nat) (locked : List Principal) (db : Database) :
    Except DbError Nat × Database :=
  if batchSize = 0 then (.ok 0, db)
  else if 2 ^ 63 - 1 < batchSize then
    (.error (.other "reservation reclaim batch size is too large"), db)
  else
    atomically (do
      let balances ← Tx.read fun db => sweepBatch now batchSize locked db.toTables
      let state ← reclaimExpiredForLockedBalancesIsolatingInvalidUsers now balances
      pure state.reclaimed) db

end BalanceReservation

/-- `UserBalance::find_by_users_reclaiming_expired`; the map it returns is given by its
values. -/
def UserBalance.findByUsersReclaimingExpired (now : Timestamp) (tenantId : Uuid)
    (userIds : List Uuid) (db : Database) : Except DbError (List UserBalance) × Database :=
  if userIds = [] then (.ok [], db)
  else
    atomically (do
      let balances ← Tx.read fun db => orderByUser
        (db.userBalances.filter fun b => decide (b.tenantId = tenantId ∧ b.userId ∈ userIds))
      let state ← reclaimExpiredForLockedBalances now balances
      pure state.balances) db

/-! ## What the batches lock -/

section Locked

variable {db : Database} {now : Timestamp} {batchSize : Nat} {locked : List Principal}

theorem Locked.of_orderByUser {selected : UserBalance → Bool} :
    Locked db (orderByUser (db.userBalances.filter selected)) := by
  have hperm : (orderByUser (db.userBalances.filter selected)).Perm
      (db.userBalances.filter selected) := perm_insertionSort _ _
  refine ⟨fun b hb => mem_of_mem_filter (hperm.mem_iff.mp hb), ?_⟩
  rw [(hperm.map _).nodup_iff]
  exact db.userBalances_unique.sublist (filter_sublist.map _)

theorem Locked.take {balances : List UserBalance} (h : Locked db balances) (n : Nat) :
    Locked db (balances.take n) :=
  ⟨fun b hb => h.rows b (mem_of_mem_take hb),
    h.distinct.sublist ((take_sublist n balances).map _)⟩

theorem Locked.sweepBatch : Locked db (sweepBatch now batchSize locked
    db.toTables) :=
  Locked.of_orderByUser.take _

theorem mem_sweepBatch (hbatch : db.userBalances.length ≤ batchSize) {b : UserBalance} :
    b ∈ sweepBatch now batchSize [] db.toTables ↔
      b ∈ db.userBalances ∧ sweepable now db.toTables b := by
  unfold sweepBatch
  rw [take_of_length_le]
  · simp [orderByUser, mem_insertionSort]
  · rw [orderByUser, length_insertionSort]
    exact (length_filter_le _ _).trans hbatch

end Locked

/-! ## Completeness of the sweep -/

section Complete

variable {db db' : Database} {now : Timestamp} {batchSize n : Nat} {locked : List Principal}

theorem reclaimExpired_inversion
    (h : reclaimExpired now batchSize locked db = (.ok n, db')) :
    ∃ ps, db'.toTables = db.toTables.reclaim ps now ∧
      (0 < batchSize → ps = coveredPrincipals db.toTables
        (sweepBatch now batchSize locked db.toTables)) := by
  unfold reclaimExpired at h
  split at h
  · rename_i hzero
    cases h
    exact ⟨[], reclaim_nil.symm, fun hpos => absurd hzero (Nat.pos_iff_ne_zero.mp hpos)⟩
  · split at h
    · cases h
    · simp only [atomically_eq_ok, Tx.inv] at h
      obtain ⟨_, rfl, st, _, hrun, rfl, rfl⟩ := h
      exact ⟨_, (reclaimInner_inversion Locked.sweepBatch hrun).1.tables, fun _ => rfl⟩

theorem Tables.activeTotal_le_userActiveTotal (db : Database) (p : Principal) :
    db.activeTotal p ≤ db.userActiveTotal p.userId :=
  totalWhere_le (fun r _ hr => by
      obtain ⟨rfl, hactive⟩ := of_decide_eq_true hr
      exact decide_eq_true ⟨rfl, hactive⟩)
    fun _ member => db.amount_nonneg member

theorem Tables.mem_reclaim_expired {t : Tables} {ps : List Principal} {r : BalanceReservation}
    (hactive : r.status = .active) (hexpired : r.expiresAt ≤ now) :
    r ∈ (t.reclaim ps now).balanceReservations ↔
      r ∈ t.balanceReservations ∧ r.principal ∉ ps := by
  simp only [reclaim, mem_updateWhere]
  constructor
  · rintro ⟨r₀, member, hr⟩
    split at hr
    · subst hr
      cases hactive
    · rename_i hnot
      subst hr
      refine ⟨member, fun hp => hnot ?_⟩
      exact decide_eq_true ⟨hp, hactive, hexpired⟩
  · grind [reclaimedRow]

theorem Tables.principals_reclaim {t : Tables} {ps : List Principal} :
    (t.reclaim ps now).userBalances.map UserBalance.principal =
      t.userBalances.map UserBalance.principal := by
  rw [reclaim, map_updateWhere fun b _ _ => b.principal_unhold _]

theorem mem_coveredPrincipals_sweepBatch (hbatch : db.userBalances.length ≤ batchSize)
    {b : UserBalance} (hb : b ∈ db.userBalances) :
    b.principal ∈ coveredPrincipals db.toTables
        (sweepBatch now batchSize [] db.toTables) ↔
      sweepable now db.toTables b := by
  rw [mem_coveredPrincipals]
  constructor
  · rintro ⟨b', hb', -, hprincipal⟩
    obtain ⟨hmem, hsweep⟩ := (mem_sweepBatch hbatch).mp hb'
    have : b' = b := inj_on_of_nodup_map db.userBalances_unique hmem hb hprincipal
    exact this ▸ hsweep
  · intro hsweep
    refine ⟨b, (mem_sweepBatch hbatch).mpr ⟨hb, hsweep⟩, ?_, rfl⟩
    have htotal := of_decide_eq_true (Bool.and_eq_true_iff.mp hsweep).2
    exact (activeTotal_le_userActiveTotal db b.principal).trans htotal

theorem sweepable_iff {b : UserBalance} (hexpired : 0 < db.expiredCount now b.principal) :
    sweepable now db.toTables b ↔
      db.userActiveTotal b.userId ≤ b.frozenBalance := by
  obtain ⟨r, member, hr⟩ := countP_pos_iff.mp hexpired
  obtain ⟨hprincipal, hactive, hexp⟩ := of_decide_eq_true hr
  have hany : db.balanceReservations.any (fun r =>
      decide (r.userId = b.userId ∧ r.status = .active ∧ r.expiresAt ≤ now)) = true :=
    any_eq_true.mpr ⟨r, member, decide_eq_true
      ⟨congrArg Principal.userId hprincipal, hactive, hexp⟩⟩
  rw [sweepable, hany, Bool.true_and, decide_eq_true_eq]

/-- **When the sweep is complete.**  In every state, a successful sweep over all wallets leaves
no expired reservation of a wallet active if and only if every wallet with an expired
reservation covers the active reservations of its user in *all* tenants. -/
theorem reclaimExpired_complete_iff
    (hbatch : db.userBalances.length ≤ batchSize)
    (h : reclaimExpired now batchSize [] db = (.ok n, db')) :
    (∀ r ∈ db'.balanceReservations, r.principal ∈ db'.userBalances.map UserBalance.principal →
        ¬ (r.status = .active ∧ r.expiresAt ≤ now)) ↔
      ∀ b ∈ db.userBalances, 0 < db.expiredCount now b.principal →
        db.userActiveTotal b.userId ≤ b.frozenBalance := by
  obtain ⟨ps, htables, hps⟩ := reclaimExpired_inversion h
  have hselected {b : UserBalance} (hb : b ∈ db.userBalances) :
      b.principal ∈ ps ↔ sweepable now db.toTables b := by
    rw [hps ((length_pos_of_mem hb).trans_le hbatch)]
    exact mem_coveredPrincipals_sweepBatch hbatch hb
  rw [htables, principals_reclaim]
  constructor
  · intro hclean b hb hexpired
    by_contra hshort
    obtain ⟨r, member, hr⟩ := countP_pos_iff.mp hexpired
    obtain ⟨hprincipal, hactive, hexp⟩ := of_decide_eq_true hr
    have hskipped : r.principal ∉ ps := by
      rw [hprincipal, hselected hb, sweepable_iff hexpired]
      exact hshort
    refine hclean r ((mem_reclaim_expired hactive hexp).mpr ⟨member, hskipped⟩) ?_
      ⟨hactive, hexp⟩
    exact hprincipal ▸ mem_map_of_mem hb
  · rintro hcovered r hr hwallet ⟨hactive, hexp⟩
    obtain ⟨member, hskipped⟩ := (mem_reclaim_expired hactive hexp).mp hr
    obtain ⟨b, hb, hprincipal⟩ := mem_map.mp hwallet
    have hexpired : 0 < db.expiredCount now b.principal :=
      countP_pos_iff.mpr ⟨r, member, decide_eq_true ⟨hprincipal.symm, hactive, hexp⟩⟩
    refine hskipped (hprincipal ▸ (hselected hb).mpr ?_)
    exact (sweepable_iff hexpired).mpr (hcovered b hb hexpired)

end Complete

/-- A user who moved from tenant `1` to tenant `2` and holds a reservation in each, of which
the one in tenant `1` has expired.  Both wallets cover their own reservation. -/
def movedUser : Database where
  reference :=
    { tenants := [⟨1, true⟩, ⟨2, true⟩], users := [⟨10, true⟩],
      memberships := [⟨1, 10, .removed⟩, ⟨2, 10, .active⟩],
      usageLogs := [], nodes := [], nodeTasks := [], nodeTipRatio := none }
  userBalances := [⟨1, 10, 0, 5, 5, 0⟩, ⟨2, 10, 0, 5, 5, 0⟩]
  balanceReservations :=
    [⟨100, 7, 1, 10, 5, .active, none, 20, none, none, none, none, none⟩,
      ⟨101, 8, 2, 10, 5, .active, none, 90, none, none, none, none, none⟩]
  balanceTransactions := []
  adminBalanceOperations := []
  paymentOrders := []
  paymentNotifications := []
  nodeTips := []
  nodeTipWithdrawals := []
  valid := by decide

/-- The sweep passes over the moved user: it succeeds, reclaims nothing, and the expired
reservation in tenant `1` stays active. -/
theorem reclaimExpired_skips_movedUser :
    (∀ b ∈ movedUser.userBalances, movedUser.activeTotal b.principal ≤ b.frozenBalance) ∧
      movedUser.userBalances.length ≤ 2 ∧
      (reclaimExpired 50 2 [] movedUser).1.toOption = some 0 ∧
      ∃ r ∈ (reclaimExpired 50 2 [] movedUser).2.balanceReservations,
        r.principal ∈ (reclaimExpired 50 2 [] movedUser).2.userBalances.map
          UserBalance.principal ∧ r.status = .active ∧ r.expiresAt ≤ 50 := by
  decide

theorem reclaimExpired_complete_iff_movedUser :
    ∃ db', reclaimExpired 50 2 [] movedUser = (.ok 0, db') ∧
      ((∀ r ∈ db'.balanceReservations, r.principal ∈ db'.userBalances.map UserBalance.principal →
          ¬ (r.status = .active ∧ r.expiresAt ≤ 50)) ↔
        ∀ b ∈ movedUser.userBalances, 0 < movedUser.expiredCount 50 b.principal →
          movedUser.userActiveTotal b.userId ≤ b.frozenBalance) := by
  have hrun : reclaimExpired 50 2 [] movedUser =
      (.ok 0, (reclaimExpired 50 2 [] movedUser).2) :=
    Prod.ext (by decide) rfl
  exact ⟨_, hrun, reclaimExpired_complete_iff (by decide) hrun⟩

/-! ## Batches against single wallets -/

/-- Reclamation of the wallets one at a time; the result counts the reclaimed rows. -/
def reclaimOneByOne (now : Timestamp) : List UserBalance → DbTx Nat
  | [] => pure 0
  | balance :: rest => do
    let state ← reclaimExpiredForLockedBalances now [balance]
    let reclaimed ← reclaimOneByOne now rest
    pure (state.reclaimed + reclaimed)

/-- **The batch is faithful**: it succeeds, ends where wallet-by-wallet reclamation ends in any
order, with the same count, and leaves the rows of all other principals alone. -/
def BatchFaithful (db : Database) (now : Timestamp) (balances : List UserBalance) : Prop :=
  ∃ st db', reclaimExpiredForLockedBalancesIsolatingInvalidUsers now balances db = (.ok st, db') ∧
    (∀ order : List UserBalance, order.Perm balances →
      ∃ db'', reclaimOneByOne now order db = (.ok st.reclaimed, db'') ∧
        db''.userBalances = db'.userBalances ∧
        db''.balanceReservations = db'.balanceReservations) ∧
    ∀ p ∉ balances.map UserBalance.principal,
      db'.userBalances.filter (fun b => decide (b.principal = p)) =
          db.userBalances.filter (fun b => decide (b.principal = p)) ∧
        db'.balanceReservations.filter (fun r => decide (r.principal = p)) =
          db.balanceReservations.filter (fun r => decide (r.principal = p))

section Batch

variable {db : Database} {t : Tables} {now : Timestamp} {p : Principal} {ps : List Principal}
  {balances : List UserBalance}

namespace Tables

theorem reclaim_congr {ps' : List Principal} (h : ∀ p, p ∈ ps ↔ p ∈ ps') :
    t.reclaim ps now = t.reclaim ps' now := by
  have hrow : reclaimedRow ps now = reclaimedRow ps' now := by
    funext r
    simp [reclaimedRow, h]
  simp [reclaim, hrow, h]

theorem reservations_reclaim_of_not_mem (hp : p ∉ ps) :
    (t.reclaim ps now).balanceReservations.filter (fun r => decide (r.principal = p)) =
      t.balanceReservations.filter fun r => decide (r.principal = p) := by
  refine filter_updateWhere_of_not fun r _ hr => ?_
  obtain ⟨hmem, -⟩ := of_decide_eq_true hr
  have hne : r.principal ≠ p := fun h => hp (h ▸ hmem)
  exact ⟨decide_eq_false hne, decide_eq_false hne⟩

theorem balances_reclaim_of_not_mem (hp : p ∉ ps) :
    (t.reclaim ps now).userBalances.filter (fun b => decide (b.principal = p)) =
      t.userBalances.filter fun b => decide (b.principal = p) := by
  refine filter_updateWhere_of_not fun b _ hb => ?_
  have hne : b.principal ≠ p := fun h => hp (h ▸ of_decide_eq_true hb)
  exact ⟨decide_eq_false hne, decide_eq_false hne⟩

theorem expired_congr {t' : Tables}
    (h : t'.balanceReservations.filter (fun r => decide (r.principal = p)) =
      t.balanceReservations.filter fun r => decide (r.principal = p)) :
    t'.expiredTotal now p = t.expiredTotal now p ∧
      t'.expiredCount now p = t.expiredCount now p := by
  have hsplit (r : BalanceReservation) : expiredFor now p r =
      (decide (r.status = .active ∧ r.expiresAt ≤ now) && decide (r.principal = p)) := by
    simp [expiredFor, and_comm]
  constructor
  · simp only [expiredTotal, funext hsplit, ← totalWhere_filter, h]
  · simp only [expiredCount, funext hsplit, ← countP_filter, h]

theorem reclaim_reclaim (hp : p ∉ ps) :
    (t.reclaim [p] now).reclaim ps now = t.reclaim (p :: ps) now := by
  have htotal {q : Principal} (hq : q ∈ ps) :
      (t.reclaim [p] now).expiredTotal now q = t.expiredTotal now q := by
    have hne : q ∉ [p] := by
      rintro hmem
      exact hp (mem_singleton.mp hmem ▸ hq)
    exact (expired_congr (reservations_reclaim_of_not_mem hne)).1
  have hbalances : ((t.reclaim [p] now).reclaim ps now).userBalances =
      (t.reclaim (p :: ps) now).userBalances := by
    change updateWhere _ _ (updateWhere _ _ t.userBalances) = updateWhere _ _ t.userBalances
    simp only [updateWhere, map_map]
    refine map_congr_left fun b _ => ?_
    by_cases hb : b.principal = p
    · simp [hb, hp]
    · by_cases hmem : b.principal ∈ ps <;> simp [hb, hmem, htotal]
  have hreservations : ((t.reclaim [p] now).reclaim ps now).balanceReservations =
      (t.reclaim (p :: ps) now).balanceReservations := by
    change updateWhere _ _ (updateWhere _ _ t.balanceReservations) =
      updateWhere _ _ t.balanceReservations
    simp only [updateWhere, map_map]
    refine map_congr_left fun r _ => ?_
    have hdone : reclaimedRow ps now r.expire = false := by
      simp [reclaimedRow, expire]
    by_cases hexp : r.status = .active ∧ r.expiresAt ≤ now
    · grind [reclaimedRow]
    · have hrow (L : List Principal) : reclaimedRow L now r = false :=
        decide_eq_false fun h => hexp h.2
      simp [hrow]
  exact congrArg₂ (fun bs rs => { t with userBalances := bs, balanceReservations := rs }) hbalances
    hreservations

end Tables

/-- **Wallet-by-wallet reclamation** of covered wallets succeeds, and reclaims them all. -/
theorem reclaimOneByOne_eq (now : Timestamp) :
    ∀ (order : List UserBalance) (db : Database), Locked db order →
      (∀ b ∈ order, db.activeTotal b.principal ≤ b.frozenBalance) →
      ∃ db', reclaimOneByOne now order db =
          (.ok ((order.map fun b => db.expiredCount now b.principal).sum), db') ∧
        db'.toTables = db.toTables.reclaim (order.map UserBalance.principal) now := by
  intro order
  induction order with
  | nil => exact fun db _ _ => ⟨db, rfl, reclaim_nil.symm⟩
  | cons b rest ih =>
    intro db hlocked hcovered
    have hb : b ∈ db.userBalances := hlocked.rows b mem_cons_self
    obtain ⟨hnotin, hdistinct⟩ := nodup_cons.mp hlocked.distinct
    obtain ⟨st, db₁, hfirst, htables, hcount⟩ :=
      reclaimOne_succeeds now hb (hcovered b mem_cons_self)
    -- the first reclamation leaves the other wallets of the batch alone
    have hother {b' : UserBalance} (hb' : b' ∈ rest) : b'.principal ∉ [b.principal] := by grind
    have hrows : ∀ b' ∈ rest, b' ∈ db₁.userBalances := by
      grind [reclaim, mem_updateWhere, mem_cons_of_mem, Locked]
    have hcovered₁ : ∀ b' ∈ rest, db₁.activeTotal b'.principal ≤ b'.frozenBalance := by
      intro b' hb'
      rw [htables, activeTotal_reclaim_of_not_mem (hother hb')]
      exact hcovered b' (mem_cons_of_mem _ hb')
    obtain ⟨db₂, hrest, htables₂⟩ := ih db₁ ⟨hrows, hdistinct⟩ hcovered₁
    have hcounts : (rest.map fun b' => db₁.expiredCount now b'.principal) =
        rest.map fun b' => db.expiredCount now b'.principal :=
      map_congr_left fun b' hb' => by
        rw [htables]
        exact (expired_congr (reservations_reclaim_of_not_mem (hother hb'))).2
    refine ⟨db₂, ?_, ?_⟩
    · rw [reclaimOneByOne, Tx.bind_of_ok hfirst, Tx.bind_of_ok hrest, hcount, hcounts]
      rfl
    · rw [htables₂, htables, reclaim_reclaim hnotin, map_cons]

/-- **When a batch is faithful.**  In a state where every wallet covers its own active
reservations, a batch of locked wallets is faithful to wallet-by-wallet reclamation if and only
if no principal that combines a user and a tenant of the batch, but is not in it, has an
expired reservation. -/
theorem batchFaithful_iff
    (covered : ∀ b ∈ db.userBalances, db.activeTotal b.principal ≤ b.frozenBalance)
    (locked : Locked db balances) (nonempty : balances ≠ []) :
    BatchFaithful db now balances ↔ NoOutsider db.toTables now balances := by
  have hall : coveredPrincipals db.toTables balances = balances.map UserBalance.principal := by
    rw [coveredPrincipals, filter_eq_self.mpr fun b hb =>
      decide_eq_true (covered b (locked.rows b hb))]
  constructor
  · rintro ⟨st, db', hrun, -⟩
    by_contra houtside
    refine reclaimInner_fails locked ?_ houtside hrun
    simpa [hall] using nonempty
  · intro houtside
    obtain ⟨st, db', hrun⟩ := reclaimInner_succeeds locked (.inl rfl) houtside
    obtain ⟨hout, -⟩ := reclaimInner_inversion locked hrun
    rw [hall] at hout
    refine ⟨st, db', hrun, fun order hperm => ?_, fun p hp => ?_⟩
    · have horder : Locked db order :=
        ⟨fun b hb => locked.rows b (hperm.mem_iff.mp hb),
          (hperm.map _).nodup_iff.mpr locked.distinct⟩
      obtain ⟨db'', hsingle, htables⟩ := reclaimOneByOne_eq now order db horder
        fun b hb => covered b (horder.rows b hb)
      have hsame : db''.toTables = db'.toTables := by
        rw [htables, hout.tables]
        exact reclaim_congr fun p => (hperm.map _).mem_iff
      refine ⟨db'', ?_, by rw [hsame], by rw [hsame]⟩
      rw [hsingle, hout.reclaimed, map_map]
      exact congrArg (fun n => (Except.ok n, db'')) (hperm.map _).sum_eq
    · rw [hout.tables]
      exact ⟨balances_reclaim_of_not_mem hp, reservations_reclaim_of_not_mem hp⟩

end Batch

/-- Two users with wallets in tenant `2`, one of whom kept a wallet in tenant `1`.  The user's
reservation in tenant `2` has expired. -/
def crossedUsers : Database where
  reference :=
    { tenants := [⟨1, true⟩, ⟨2, true⟩], users := [⟨10, true⟩, ⟨11, true⟩],
      memberships := [⟨1, 10, .removed⟩, ⟨2, 10, .active⟩, ⟨2, 11, .active⟩],
      usageLogs := [], nodes := [], nodeTasks := [], nodeTipRatio := none }
  userBalances := [⟨1, 10, 3, 0, 3, 0⟩, ⟨2, 11, 4, 0, 4, 0⟩, ⟨2, 10, 0, 5, 5, 0⟩]
  balanceReservations :=
    [⟨100, 7, 2, 10, 5, .active, none, 20, none, none, none, none, none⟩]
  balanceTransactions := []
  adminBalanceOperations := []
  paymentOrders := []
  paymentNotifications := []
  nodeTips := []
  nodeTipWithdrawals := []
  valid := by decide

/-- The batch of the two wallets without expired reservations. -/
def crossedBatch : List UserBalance := [⟨1, 10, 3, 0, 3, 0⟩, ⟨2, 11, 4, 0, 4, 0⟩]

/-- The batch fails as a whole: the reservation of `(2, 10)` is counted as expected but not
marked, although neither of the two wallets has anything to reclaim. -/
theorem crossedBatch_fails :
    (∀ b ∈ crossedUsers.userBalances, crossedUsers.activeTotal b.principal ≤ b.frozenBalance) ∧
      (∀ b ∈ crossedBatch, b ∈ crossedUsers.userBalances) ∧
      (crossedBatch.map UserBalance.principal).Nodup ∧ crossedBatch ≠ [] ∧
      ¬ BatchFaithful crossedUsers 50 crossedBatch := by
  refine ⟨by decide, by decide, by decide, by decide, ?_⟩
  rintro ⟨st, db', hrun, -⟩
  have hfails : (reclaimExpiredForLockedBalancesIsolatingInvalidUsers 50 crossedBatch
      crossedUsers).1.toOption.isNone = true := by decide
  rw [hrun] at hfails
  cases hfails

/-- All three wallets make a faithful batch, in which the reservation is reclaimed. -/
theorem batchFaithful_iff_crossedUsers :
    crossedUsers.expiredCount 50 ⟨2, 10⟩ = 1 ∧
      BatchFaithful crossedUsers 50 crossedUsers.userBalances := by
  refine ⟨by decide, (batchFaithful_iff (by decide) ⟨by decide, by decide⟩ (by decide)).mpr ?_⟩
  rintro ⟨tenant, user⟩ huser htenant houtside
  replace huser : user = 10 ∨ user = 11 ∨ user = 10 := by simpa [crossedUsers] using huser
  replace htenant : tenant = 1 ∨ tenant = 2 := by simpa [crossedUsers] using htenant
  -- only `(1, 11)` is outside, and it has no reservation
  rcases huser with rfl | rfl | rfl <;> rcases htenant with rfl | rfl <;> revert houtside <;> decide

end KeyCompute
