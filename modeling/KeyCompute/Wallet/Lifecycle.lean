import KeyCompute.Wallet.Step

/-!
# The lifecycle of a reservation

`RowChange` is the automaton of the moves of a reservation row between `active`, `settled`,
`released` and `expired`, with the act that drives each; `WalletStep.rowChange` says that a wallet
step changes the row of a request only along it.  Read off the automaton:

* a settled row and an administrative release are never left again;
* a row becomes active only by a `reserve`, which installs the token of its caller;
* `settle` and `release` write only under the current owner token.
-/

namespace KeyCompute

open Relational

/-! ## The automaton -/

namespace BalanceReservation

/-- **The changes of one reservation row**, under the act that makes them.  `wallets` are the
tables before the change. -/
inductive RowChange (wallets : Tables) (act : Act) :
    Option BalanceReservation → Option BalanceReservation → Prop where
  | unchanged (row : Option BalanceReservation) : RowChange wallets act row row
  | created {req : ReserveRequest} {amount : ℤ} (hact : act = .reserve req)
      (wallet : (wallets.balance? req.principal).isSome) :
      RowChange wallets act none (some (new req amount))
  | retaken {req : ReserveRequest} {amount : ℤ} {r : BalanceReservation}
      (hact : act = .reserve req) (request : r.requestId = req.requestId)
      (reusable : Reusable req r) :
      RowChange wallets act (some r) (some (reactivate req amount r))
  | expired {r : BalanceReservation} (status : r.status = .active) :
      RowChange wallets act (some r) (some r.expire)
  | settled {r : BalanceReservation} (now : Timestamp) (usageLogId : Uuid)
      (status : r.status = .active) :
      RowChange wallets act (some r) (some (markSettled now usageLogId r))
  | released {r : BalanceReservation} (now : Timestamp) (status : r.status = .active) :
      RowChange wallets act (some r) (some (markReleased now r))
  | adminReleased {r : BalanceReservation} (clock : Timestamp) (reason : String)
      (releasedBy : Uuid) (status : r.status = .active) :
      RowChange wallets act (some r) (some (markAdministrativelyReleased clock reason releasedBy r))

/-- Rows that no step changes any more: settled ones and administrative releases. -/
def Terminal (r : BalanceReservation) : Prop :=
  r.status = .settled ∨ (r.status = .released ∧ r.releaseKind = some .administrative)

variable {row : Option BalanceReservation} {r : BalanceReservation} {wallets : Tables} {act : Act}

theorem Terminal.not_active (h : r.Terminal) : r.status ≠ .active := by
  rcases h with h | ⟨h, -⟩ <;> simp [h]

theorem RowChange.of_terminal (h : RowChange wallets act (some r) row) (terminal : r.Terminal) :
    row = some r := by
  cases h with
  | unchanged => rfl
  | retaken hact request reusable =>
    rcases terminal with hsettled | htomb
    · exact absurd hsettled reusable.not_settled
    · exact absurd htomb reusable.not_tombstone
  | expired status => exact absurd status terminal.not_active
  | settled now log status => exact absurd status terminal.not_active
  | released now status => exact absurd status terminal.not_active
  | adminReleased clock reason releasedBy status => exact absurd status terminal.not_active

theorem RowChange.principal {r' : BalanceReservation} (h : RowChange wallets act row (some r')) :
    (∃ r, row = some r ∧ r'.principal = r.principal) ∨
      (wallets.balance? r'.principal).isSome := by
  cases h with
  | unchanged => exact .inl ⟨_, rfl, rfl⟩
  | created hact wallet => exact .inr wallet
  | retaken | expired | settled | released | adminReleased => exact .inl ⟨_, rfl, rfl⟩

theorem RowChange.persists (h : RowChange wallets act (some r) row) :
    ∃ r', row = some r' ∧ r'.principal = r.principal := by
  cases h <;> exact ⟨_, rfl, rfl⟩

/-- The owner token of a row changes only by a `reserve`, to the token of its caller. -/
theorem RowChange.ownerToken (h : RowChange wallets act (some r) row) :
    ∃ r', row = some r' ∧ (r'.ownerToken = r.ownerToken ∨
      ∃ req, act = .reserve req ∧ r'.ownerToken = req.ownerToken) := by
  cases h with
  | unchanged => exact ⟨r, rfl, .inl rfl⟩
  | retaken hact request reusable => exact ⟨_, rfl, .inr ⟨_, hact, rfl⟩⟩
  | expired | settled | released | adminReleased => exact ⟨_, rfl, .inl rfl⟩

theorem RowChange.of_inactive (h : RowChange wallets act (some r) row)
    (inactive : r.status ≠ .active) :
    row = some r ∨ ∃ req amount, act = .reserve req ∧ r.requestId = req.requestId ∧
      Reusable req r ∧ row = some (reactivate req amount r) := by
  cases h with
  | unchanged => exact .inl rfl
  | retaken hact request reusable => exact .inr ⟨_, _, hact, request, reusable, rfl⟩
  | expired status => exact absurd status inactive
  | settled now log status => exact absurd status inactive
  | released now status => exact absurd status inactive
  | adminReleased clock reason releasedBy status => exact absurd status inactive

end BalanceReservation

/-! ## Steps follow the automaton -/

namespace Tables

variable {t : Tables} {q id : Uuid}

theorem reservation?_updateReservation {g : BalanceReservation → BalanceReservation}
    (hg : ∀ r, (g r).requestId = r.requestId) :
    (t.updateReservation id g).reservation? q =
      if q = id then (t.reservation? id).map g else t.reservation? q :=
  lookup_updateKey hg

theorem reservation?_insertReservation {r : BalanceReservation} :
    (t.insertReservation r).reservation? q =
      (t.reservation? q).or (if r.requestId = q then some r else none) := by
  rw [reservation?, insertReservation, lookup_append, lookup_singleton]
  rfl

theorem reservation?_reclaim {ps : List Principal} {now : Timestamp} :
    (t.reclaim ps now).reservation? q = (t.reservation? q).map fun r =>
      if BalanceReservation.reclaimedRow ps now r then r.expire else r :=
  lookup_updateWhere fun _ _ => rfl

end Tables

open BalanceReservation in
theorem RowChange.of_update {t wallets : Tables} {act : Act} {q id : Uuid}
    {g : BalanceReservation → BalanceReservation} {r : BalanceReservation}
    (hg : ∀ r, (g r).requestId = r.requestId) (found : t.reservation? id = some r)
    (change : RowChange wallets act (some r) (some (g r))) :
    RowChange wallets act (t.reservation? q) ((t.updateReservation id g).reservation? q) := by
  rw [Tables.reservation?_updateReservation hg]
  by_cases hq : q = id
  · subst hq
    rw [if_pos rfl, found]
    exact change
  · rw [if_neg hq]
    exact .unchanged _

open BalanceReservation in
/-- **Every step follows the automaton**, on the row of every request. -/
theorem WalletStep.rowChange {t t' : Tables} {act : Act} (h : WalletStep t act t') (q : Uuid) :
    RowChange t act (t.reservation? q) (t'.reservation? q) := by
  cases h with
  | opened p => exact .unchanged _
  | reclaimed ps now =>
    rw [Tables.reservation?_reclaim]
    cases hr : t.reservation? q with
    | none => exact .unchanged _
    | some r =>
      by_cases hrow : reclaimedRow ps now r
      · simpa [hrow] using RowChange.expired (of_decide_eq_true hrow).2.1
      · simpa [hrow] using RowChange.unchanged (some r)
  | @reserved req t' effect =>
    cases effect with
    | created wallet nonneg absent =>
      rw [Tables.reservation?_insertReservation]
      change RowChange t _ _ ((t.reservation? q).or (if req.requestId = q then _ else none))
      by_cases hq : req.requestId = q
      · subst hq
        rw [if_pos rfl, absent]
        exact .created rfl (Option.isSome_of_eq_some wallet)
      · rw [if_neg hq, Option.or_none]
        exact .unchanged _
    | retaken wallet nonneg found reusable =>
      exact RowChange.of_update (fun _ => rfl) found
        (.retaken rfl (key_of_lookup found) reusable)
  | settled effect =>
    cases effect with
    | replayed => exact .unchanged _
    | declined => exact .unchanged _
    | reconciled found status owner wallet charged same =>
      exact RowChange.of_update (fun _ => rfl) found (.settled _ _ status)
    | charged found status owner wallet uncharged records =>
      exact RowChange.of_update (fun _ => rfl) found (.settled _ _ status)
  | released effect =>
    cases effect with
    | declined => exact .unchanged _
    | released found status owner =>
      exact RowChange.of_update (fun _ => rfl) found (.released _ status)
  | adminReleased effect =>
    cases effect with
    | unchanged => exact .unchanged _
    | released found status owner wallet =>
      exact RowChange.of_update (fun _ => rfl) found (.adminReleased _ _ _ status)
  | credited type_eq records => exact .unchanged _
  | consumed effect =>
    cases effect with
    | replayed => exact .unchanged _
    | charged unrecorded moved =>
      rw [moved.tables]
      exact .unchanged _
  | frozen nonneg moved | unfrozen wallet covered moved =>
    rw [moved.tables]
    exact .unchanged _
  | elsewhere balances reservations transactions =>
    rw [Tables.reservation?, Tables.reservation?, reservations]
    exact .unchanged _

/-! ## Runs -/

section Runs

variable {acts : Act → Prop} {db db' : Database} {q : Uuid} {r : BalanceReservation}

theorem terminal_run (found : db.reservation? q = some r) (terminal : r.Terminal)
    (calls : List WalletCall) :
    (runAll WalletCall.step calls db).reservation? q = some r := by
  refine runAll_invariant (I := fun db => db.reservation? q = some r) (fun c db found => ?_)
    calls db found
  refine (c.steps db).invariant (I := fun db => db.reservation? q = some r)
    (fun _ step found => ?_) found
  have hchange := step.rowChange q
  rw [found] at hchange
  exact hchange.of_terminal terminal

theorem WalletSteps.row_persists (h : WalletSteps acts db db')
    (found : db.reservation? q = some r) :
    ∃ r', db'.reservation? q = some r' ∧ r'.principal = r.principal := by
  refine h.invariant (I := fun db : Database => ∃ r', db.reservation? q = some r' ∧
    r'.principal = r.principal) (fun _ step hI => ?_) ⟨r, found, rfl⟩
  obtain ⟨r₁, hr₁, hprincipal₁⟩ := hI
  have hchange := step.rowChange q
  rw [hr₁] at hchange
  obtain ⟨r', hr', hprincipal⟩ := hchange.persists
  exact ⟨r', hr', hprincipal.trans hprincipal₁⟩

/-- From an inactive row, steps leave it alone until some `reserve` retakes it; the token is
then one that a `reserve` installed. -/
theorem WalletSteps.retaken (h : WalletSteps acts db db') (found : db.reservation? q = some r)
    (inactive : r.status ≠ .active) :
    db'.reservation? q = some r ∨
      ∃ req, acts (.reserve req) ∧ r.requestId = req.requestId ∧
        BalanceReservation.Reusable req r ∧
        ∃ r' req', db'.reservation? q = some r' ∧ acts (.reserve req') ∧
          r'.ownerToken = req'.ownerToken := by
  refine h.invariant (I := fun db => db.reservation? q = some r ∨
      ∃ req, acts (.reserve req) ∧ r.requestId = req.requestId ∧
        BalanceReservation.Reusable req r ∧
        ∃ r' req', db.reservation? q = some r' ∧ acts (.reserve req') ∧
          r'.ownerToken = req'.ownerToken) (fun hact step hI => ?_) (.inl found)
  have hchange := step.rowChange q
  rcases hI with hsame | ⟨req, hreq, hrequest, hreusable, r₁, req₁, hr₁, hreq₁, htoken₁⟩
  · rw [hsame] at hchange
    rcases hchange.of_inactive inactive with hrow | ⟨req, amount, rfl, hrequest, hreusable, hrow⟩
    · exact .inl hrow
    · exact .inr ⟨req, hact, hrequest, hreusable, _, req, hrow, hact, rfl⟩
  · rw [hr₁] at hchange
    obtain ⟨r', hr', htoken | ⟨req', rfl, htoken⟩⟩ := hchange.ownerToken
    · exact .inr ⟨req, hreq, hrequest, hreusable, r', req₁, hr', hreq₁, htoken.trans htoken₁⟩
    · exact .inr ⟨req, hreq, hrequest, hreusable, r', req', hr', hact, htoken⟩

end Runs

/-! ## Ownership -/

namespace WalletCall

/-- The call is a settlement or a release of the request that presents the given token. -/
def Presents (q : Uuid) (token : Option Uuid) : WalletCall → Prop
  | settle _ _ req => req.requestId = q ∧ req.expectedOwnerToken = token
  | settleTransaction _ _ _ req => req.requestId = q ∧ req.expectedOwnerToken = token
  | release _ req => req.requestId = q ∧ some req.ownerToken = token
  | releaseTransaction _ _ req => req.requestId = q ∧ some req.ownerToken = token
  | _ => False

end WalletCall

section Ownership

variable {t t' : Tables} {db : Database} {q : Uuid} {token : Option Uuid}

open BalanceReservation

/-- The row of the request exists and has another owner token, or does not exist. -/
def Foreign (t : Tables) (q : Uuid) (token : Option Uuid) : Prop :=
  ∀ r, t.reservation? q = some r → some r.ownerToken ≠ token

theorem SettleEffect.foreign {now : Timestamp} {req : SettleRequest}
    {out : Option (UserBalance × BalanceTransaction)} (h : SettleEffect now req t t' out)
    (foreign : Foreign t req.requestId req.expectedOwnerToken) : t' = t := by
  cases h with
  | replayed => rfl
  | declined => rfl
  | reconciled found status owner => exact absurd owner (foreign _ found)
  | charged found status owner => exact absurd owner (foreign _ found)

theorem ReleaseEffect.foreign {now : Timestamp} {req : ReleaseRequest} {out : Bool}
    (h : ReleaseEffect now req t t' out)
    (foreign : Foreign t req.requestId (some req.ownerToken)) : t' = t := by
  cases h with
  | declined => rfl
  | released found status owner => exact absurd (congrArg some owner) (foreign _ found)

variable {c : WalletCall}

theorem WalletCall.Presents.foreign (presents : c.Presents q token)
    (foreign : Foreign db.toTables q token) : c.step db = db := by
  cases c with
  | settle now id req =>
    obtain ⟨rfl, rfl⟩ := presents
    rcases settle_cases (Prod.mk.eta (p := BalanceReservation.settle now id req db)).symm with
      h | ⟨out, -, heffect⟩
    · exact h
    · exact Database.eq_of_tables (SettleEffect.foreign heffect foreign)
  | settleTransaction now id snapshot req =>
    obtain ⟨rfl, rfl⟩ := presents
    rcases atomically_state (settleInTx now id snapshot req) db with h | ⟨out, h⟩
    · exact h
    · exact Database.eq_of_tables (SettleEffect.foreign (settleInTx_cases h) foreign)
  | release now req =>
    obtain ⟨rfl, rfl⟩ := presents
    rcases release_cases (Prod.mk.eta (p := BalanceReservation.release now req db)).symm with
      h | ⟨out, -, heffect⟩
    · exact h
    · exact Database.eq_of_tables (ReleaseEffect.foreign heffect foreign)
  | releaseTransaction now snapshot req =>
    obtain ⟨rfl, rfl⟩ := presents
    rcases atomically_state (releaseInTx now snapshot req) db with h | ⟨out, h⟩
    · exact h
    · exact Database.eq_of_tables (ReleaseEffect.foreign (releaseInTx_cases h) foreign)
  | _ => exact presents.elim

theorem status_of_reusable {req : ReserveRequest} {r : BalanceReservation} (h : Reusable req r)
    (check : r.Check) (inactive : r.status ≠ .active) :
    r.status = .expired ∨ (r.status = .released ∧ r.releaseKind = some .automatic) := by
  cases hstatus : r.status with
  | active => exact absurd hstatus inactive
  | settled => exact absurd hstatus h.not_settled
  | expired => exact .inl rfl
  | released =>
    refine .inr ⟨rfl, ?_⟩
    obtain ⟨kind, hkind⟩ := Option.isSome_iff_exists.mp (check.2.1.1 hstatus).2.1
    cases kind with
    | automatic => exact hkind
    | administrative => exact absurd ⟨hstatus, hkind⟩ h.not_tombstone

theorem WalletCall.reserve_of_acts {req : ReserveRequest} (h : c.Acts (.reserve req)) :
    ∃ utcNow now, c = .reserve utcNow now req := by
  cases c with
  | reserve utcNow now req' =>
    rcases h with h | h
    · cases h
      exact ⟨utcNow, now, rfl⟩
    · cases h
  | consume | freeze | unfreeze => rcases h with h | h <;> cases h
  | _ => cases h

/-- **Who owns the reservation of a request**, in one state and in every state reached from it.
A settlement and an administrative release are final.  A settlement or release under another
token than the current one changes nothing.  An inactive reservation becomes active only through
`reserve`, from an expired or an automatically released row, and then has the caller's token.
At most one token can settle or release it. -/
structure Ownership (db : Database) (q : Uuid) : Prop where
  settled_final : ∀ r, db.reservation? q = some r → r.status = .settled → ∀ later,
    ∃ r', (runAll WalletCall.step later db).reservation? q = some r' ∧
      r'.status = .settled ∧ r'.usageLogId = r.usageLogId ∧ r'.amount = r.amount
  tombstone_final : ∀ r, db.reservation? q = some r → r.status = .released →
    r.releaseKind = some .administrative → ∀ later,
    ∃ r', (runAll WalletCall.step later db).reservation? q = some r' ∧ r'.status ≠ .active
  foreign_token : ∀ r (c : WalletCall) token, db.reservation? q = some r → c.Presents q token →
    token ≠ some r.ownerToken → c.step db = db
  reactivation : ∀ r (c : WalletCall) r', db.reservation? q = some r → r.status ≠ .active →
    (c.step db).reservation? q = some r' → r'.status = .active →
    (r.status = .expired ∨ (r.status = .released ∧ r.releaseKind = some .automatic)) ∧
      ∃ utcNow now req, c = .reserve utcNow now req ∧ req.requestId = q ∧
        r'.ownerToken = req.ownerToken
  one_owner : ∀ (c₁ c₂ : WalletCall) token₁ token₂, c₁.Presents q token₁ → c₂.Presents q token₂ →
    (c₁.step db).reservation? q ≠ db.reservation? q →
    (c₂.step db).reservation? q ≠ db.reservation? q → token₁ = token₂

theorem WalletCall.Presents.owner (presents : c.Presents q token)
    (changed : (c.step db).reservation? q ≠ db.reservation? q) :
    ∃ r, db.reservation? q = some r ∧ some r.ownerToken = token := by
  by_contra hnone
  have hsame : c.step db = db :=
    presents.foreign fun r found howner => hnone ⟨r, found, howner⟩
  exact changed (by rw [hsame])

theorem reactivation {r r' : BalanceReservation} (found : db.reservation? q = some r)
    (inactive : r.status ≠ .active) (found' : (c.step db).reservation? q = some r')
    (active : r'.status = .active) :
    (r.status = .expired ∨ (r.status = .released ∧ r.releaseKind = some .automatic)) ∧
      ∃ utcNow now req, c = .reserve utcNow now req ∧ req.requestId = q ∧
        r'.ownerToken = req.ownerToken := by
  obtain ⟨member, hrequest⟩ := Database.reservation?_eq_some.mp found
  rcases (c.steps db).retaken found inactive with hsame |
    ⟨req, hacts, hreq, hreusable, r₁, req₁, hr₁, hacts₁, htoken⟩
  · grind
  · obtain ⟨utcNow, now, rfl⟩ := WalletCall.reserve_of_acts hacts
    obtain ⟨_, _, hsame⟩ := WalletCall.reserve_of_acts hacts₁
    cases hsame
    cases hr₁.symm.trans found'
    exact ⟨status_of_reusable hreusable (Database.reservation_check member) inactive, utcNow, now,
      req, rfl, hreq.symm.trans hrequest, htoken⟩

/-- **Ownership and terminality**, in every state of every interleaving of wallet calls. -/
theorem reservation_ownership (calls : List WalletCall) (db₀ : Database) (q : Uuid) :
    Ownership (runAll WalletCall.step calls db₀) q where
  settled_final r found settled later :=
    ⟨r, terminal_run found (.inl settled) later, settled, rfl, rfl⟩
  tombstone_final r found released administrative later :=
    have terminal : r.Terminal := .inr ⟨released, administrative⟩
    ⟨r, terminal_run found terminal later, terminal.not_active⟩
  foreign_token r c token found presents hforeign :=
    presents.foreign fun r' found' howner => by
      cases found.symm.trans found'
      exact hforeign howner.symm
  reactivation r c r' found inactive found' active := reactivation found inactive found' active
  one_owner c₁ c₂ token₁ token₂ presents₁ presents₂ changed₁ changed₂ := by
    obtain ⟨r₁, found₁, howner₁⟩ := presents₁.owner changed₁
    obtain ⟨r₂, found₂, howner₂⟩ := presents₂.owner changed₂
    cases found₁.symm.trans found₂
    exact howner₁.symm.trans howner₂

end Ownership

end KeyCompute
