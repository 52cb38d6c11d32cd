import KeyCompute.Responses.SettlementSystem

/-!
# What operations do to pending settlements

A response id is issued for one request (`Origin`): to a response of a billing request, to the
hidden outbox of one, or to a resource that is never billed.  A table is **in order** if its rows
agree with that (`TableOk`); then every operation except the two clears keeps each pending
settlement (`TableMoves`), and a clear takes only the rows it selects.
-/

namespace KeyCompute.Responses

open Relational ResponseAffinity

open Relational (Tx atomically lookup updateWhere)

inductive Origin where
  | response (billingRequest : Uuid)
  | outbox (billingRequest : Uuid)
  | unbilled

def Origin.billing : Origin → Option Uuid
  | .response b | .outbox b => some b
  | .unbilled => none

/-- The row of `key` holds a pending settlement of the billing request. -/
def Pending (rows : AffinityTable) (key : AffinityKey) (billingRequest : Uuid) : Prop :=
  ∃ r ∈ rows, r.key = key ∧ ∃ st, r.settlement = some st ∧ st.billingRequest = billingRequest

variable {issued : AffinityKey → Origin} {rows rows' rows'' : AffinityTable}

structure RowOk (issued : AffinityKey → Origin) (r : ResponseAffinity) : Prop where
  billing : ∀ st, r.settlement = some st → (issued r.key).billing = some st.billingRequest
  account : ∀ b, issued r.key = .response b → r.accountId.isSome
  hidden : ∀ b, issued r.key = .outbox b → r.deletedAt.isSome

/-- The table has one row for a key, and each agrees with its origin. -/
structure TableOk (issued : AffinityKey → Origin) (rows : AffinityTable) : Prop where
  unique : (rows.map key).Nodup
  row : ∀ r ∈ rows, RowOk issued r

/-- The operation keeps the table in order and every pending settlement. -/
def TableMoves (issued : AffinityKey → Origin) (rows rows' : AffinityTable) : Prop :=
  TableOk issued rows → TableOk issued rows' ∧ ∀ key b, Pending rows key b → Pending rows' key b

theorem TableMoves.refl (rows : AffinityTable) : TableMoves issued rows rows :=
  fun h => ⟨h, fun _ _ => id⟩

theorem TableMoves.trans (h : TableMoves issued rows rows') (h' : TableMoves issued rows' rows'') :
    TableMoves issued rows rows'' := by
  intro hr
  obtain ⟨ok, kept⟩ := h hr
  obtain ⟨ok', kept'⟩ := h' ok
  exact ⟨ok', fun key b pending => kept' key b (kept key b pending)⟩

/-! ## The shapes of an operation -/

structure RowMoves (issued : AffinityKey → Origin) (r r' : ResponseAffinity) : Prop where
  key : r'.key = r.key
  ok : RowOk issued r'
  kept : ∀ st, r.settlement = some st →
    ∃ st', r'.settlement = some st' ∧ st'.billingRequest = st.billingRequest

open RowMoves

theorem RowMoves.of_same {r r' : ResponseAffinity} (h : RowOk issued r) (key : r'.key = r.key)
    (settlement : r'.settlement = r.settlement) (account : r'.accountId = r.accountId)
    (deleted : r.deletedAt.isSome → r'.deletedAt.isSome) : RowMoves issued r r' where
  key := key
  ok := ⟨fun st hst => by rw [key]; exact h.billing st (settlement ▸ hst),
    fun b hb => by rw [account]; exact h.account b (key ▸ hb),
    fun b hb => deleted (h.hidden b (key ▸ hb))⟩
  kept st hst := ⟨st, settlement.trans hst, rfl⟩

theorem updateWhere_moves {p : ResponseAffinity → Bool} {f : ResponseAffinity → ResponseAffinity}
    (h : ∀ r ∈ rows, RowOk issued r → p r → RowMoves issued r (f r)) :
    TableMoves issued rows (updateWhere p f rows) := by
  intro table
  have moves : ∀ r ∈ rows, p r → RowMoves issued r (f r) :=
    fun r hr => h r hr (table.row r hr)
  refine ⟨⟨?_, ?_⟩, ?_⟩
  · rw [map_updateWhere fun r hr hp => (moves r hr hp).key]
    exact table.unique
  · intro r' hr'
    obtain ⟨r, hr, rfl⟩ := mem_updateWhere.mp hr'
    split
    · exact (moves r hr ‹_›).ok
    · exact table.row r hr
  · rintro key b ⟨r, hr, rfl, st, hst, rfl⟩
    refine ⟨_, mem_updateWhere.mpr ⟨r, hr, rfl⟩, ?_⟩
    split
    · have move := moves r hr ‹_›
      exact ⟨move.key, move.kept st hst⟩
    · exact ⟨rfl, st, hst, rfl⟩

theorem filter_moves {keep : ResponseAffinity → Bool}
    (h : ∀ r ∈ rows, RowOk issued r → keep r = false → r.settlement = none) :
    TableMoves issued rows (rows.filter keep) := by
  intro table
  refine ⟨⟨table.unique.sublist (List.filter_sublist.map _), fun r hr =>
    table.row r (List.mem_of_mem_filter hr)⟩, ?_⟩
  rintro key b ⟨r, hr, rfl, st, hst, rfl⟩
  refine ⟨r, List.mem_filter.mpr ⟨hr, ?_⟩, rfl, st, hst, rfl⟩
  by_contra dropped
  rw [h r hr (table.row r hr) (by simpa using dropped)] at hst
  exact nomatch hst

theorem append_moves {row : ResponseAffinity} (fresh : lookup key row.key rows = none)
    (ok : RowOk issued row) : TableMoves issued rows (rows ++ [row]) := by
  intro table
  refine ⟨⟨?_, ?_⟩, ?_⟩
  · rw [List.map_append, List.nodup_append]
    refine ⟨table.unique, List.nodup_singleton _, fun k hk k' hk' => ?_⟩
    obtain ⟨r, hr, rfl⟩ := List.mem_map.mp hk
    rw [List.mem_singleton.mp hk']
    exact lookup_eq_none.mp fresh r hr
  · intro r hr
    rcases List.mem_append.mp hr with hr | hr
    · exact table.row r hr
    · exact List.mem_singleton.mp hr ▸ ok
  · rintro key b ⟨r, hr, hkey⟩
    exact ⟨r, List.mem_append_left _ hr, hkey⟩

theorem upsertAffinity_moves {row r : ResponseAffinity} {mayUpdate : ResponseAffinity → Bool}
    {merge : ResponseAffinity → ResponseAffinity} (ok : RowOk issued row)
    (merges : ∀ old ∈ rows, RowOk issued old → old.key = row.key → mayUpdate old →
      RowMoves issued old (merge old))
    (h : upsertAffinity row mayUpdate merge rows = (.ok r, rows')) :
    TableMoves issued rows rows' := by
  simp only [upsertAffinity, Tx.inv] at h
  obtain ⟨existing, found, h⟩ := h
  cases existing with
  | none =>
    simp only [Tx.inv] at h
    obtain ⟨_, -, _, _, rfl, -, rfl⟩ := h
    exact append_moves found ok
  | some old =>
    simp only [Tx.inv] at h
    obtain ⟨_, may, _, -, _, _, rfl, -, rfl⟩ := h
    intro table
    -- the row met is the one that was read: the key is unique
    refine updateWhere_moves (fun r hr hok hkey => ?_) table
    have hkey : r.key = row.key := by simpa using hkey
    have same : r = old := List.inj_on_of_nodup_map table.unique hr
      (mem_of_lookup found) (hkey.trans (key_of_lookup found).symm)
    exact merges r hr hok hkey (by simpa [same] using may)

theorem onRows_moves {α : Type} {body : Tx AffinityTable DbError α}
    (h : ∀ a rows', body rows = (.ok a, rows') → TableMoves issued rows rows') :
    TableMoves issued rows (atomically body rows).2 :=
  atomically_rel (TableMoves.refl rows) h

/-! ## The operations -/

section Operations

variable {now : Timestamp}

variable {r : ResponseAffinity} {t : RouteTarget} {st : Settlement}

theorem upsertRouteWithSettlementVisibility_moves {nextPollAt : Timestamp}
    {deletedAt : Option Timestamp} (billing : (issued t.key).billing = some st.billingRequest)
    (account : ∀ b, issued t.key = .response b → t.accountId.isSome)
    (hidden : ∀ b, issued t.key = .outbox b → deletedAt.isSome)
    (h : upsertRouteWithSettlementVisibility now t st nextPollAt deletedAt rows = (.ok r, rows')) :
    TableMoves issued rows rows' := by
  refine upsertAffinity_moves ?_ ?_ h
  · refine ⟨?_, account, hidden⟩
    rintro st' hst'
    cases hst'
    exact billing
  · intro old _ hok hkey _
    have hkey : old.key = t.key := hkey
    refine ⟨rfl, ⟨?_, ?_, ?_⟩, ?_⟩
    · rintro st' hst'
      cases hst'
      exact hkey ▸ billing
    · exact fun b hb => account b (hkey ▸ hb)
    · exact fun b hb => hok.hidden b hb
    · intro st' hst'
      refine ⟨st, rfl, ?_⟩
      have := hok.billing st' hst'
      rw [hkey, billing] at this
      exact Option.some.inj this

theorem upsertRouteInTx_moves (account : t.accountId.isSome)
    (notOutbox : ∀ b, issued t.key ≠ .outbox b) (h : upsertRouteInTx now t rows = (.ok r, rows')) :
    TableMoves issued rows rows' := by
  refine upsertAffinity_moves ?_ ?_ h
  · exact ⟨fun _ hst => (nomatch hst), fun _ _ => account, fun b hb => absurd hb (notOutbox b)⟩
  intro old _ hok hkey may
  have owner : old.accountId = t.accountId := (of_decide_eq_true may).2
  exact of_same hok rfl rfl owner.symm id

theorem upsertLocal_moves {state : LocalState} (unbilled : issued t.key = .unbilled)
    (h : upsertLocal now t state rows = (.ok r, rows')) :
    TableMoves issued rows rows' := by
  have neither : ∀ origin, issued t.key = origin → origin = .unbilled :=
    fun _ h => h.symm.trans unbilled
  refine upsertAffinity_moves ?_ ?_ h
  · exact ⟨fun _ hst => (nomatch hst), fun _ hb => (nomatch neither _ hb),
      fun _ hb => (nomatch neither _ hb)⟩
  · intro old _ hok hkey may
    have hkey : old.key = t.key := hkey
    refine ⟨rfl, ⟨hok.billing, fun b hb => ?_, fun b hb => ?_⟩, fun st hst => ⟨st, hst, rfl⟩⟩
    · exact nomatch neither (.response b) ((congrArg issued hkey).symm.trans hb)
    · exact nomatch neither (.outbox b) ((congrArg issued hkey).symm.trans hb)

theorem bindResourceKind_moves {kind : ResourceKind} {u : Unit}
    (h : bindResourceKind t kind rows = (.ok u, rows')) : TableMoves issued rows rows' := by
  simp only [bindResourceKind, Tx.inv] at h
  obtain ⟨_, -, _, -, rfl⟩ := h
  exact updateWhere_moves fun r _ hok _ => of_same hok rfl rfl rfl id

theorem saveResponseAffinity_moves {nextPollAt : Timestamp} {hiddenAt : Option Timestamp} {u : Unit}
    (account : t.accountId.isSome) (origin : issued t.key = .response st.billingRequest)
    (h : saveResponseAffinity now t st nextPollAt hiddenAt rows = (.ok u, rows')) :
    TableMoves issued rows rows' := by
  simp only [saveResponseAffinity, Tx.bind_eq_ok] at h
  obtain ⟨r, rows₁, upserted, h⟩ := h
  have first : TableMoves issued rows rows₁ :=
    upsertRouteWithSettlementVisibility_moves (by rw [origin]; rfl) (fun _ _ => account)
      (fun b hb => absurd (origin.symm.trans hb) (by simp)) upserted
  split at h
  · cases h
    exact first
  · exact first.trans (bindResourceKind_moves h)

theorem saveRouteAffinity_moves {kind : ResourceKind} {u : Unit} (account : t.accountId.isSome)
    (notOutbox : ∀ b, issued t.key ≠ .outbox b)
    (h : saveRouteAffinity now t kind rows = (.ok u, rows')) : TableMoves issued rows rows' := by
  simp only [saveRouteAffinity, Tx.bind_eq_ok] at h
  obtain ⟨r, rows₁, upserted, h⟩ := h
  exact (upsertRouteInTx_moves account notOutbox upserted).trans (bindResourceKind_moves h)

theorem RowMoves.tombstone (h : RowOk issued r) :
    RowMoves issued r (r.tombstone now) :=
  of_same h rfl rfl rfl fun _ => rfl

theorem ResponseAffinity.key_of_isResource {tenantId : Uuid} {userId : Option Uuid}
    {responseId : String} (h : r.isResource tenantId userId responseId) :
    r.key = (tenantId, responseId) := by
  obtain ⟨tenant, -, response, -⟩ := of_decide_eq_true h
  exact Prod.ext tenant response

/-- A resource that is not an outbox is deleted without losing a settlement: a response keeps
its tombstone, and what is removed was never billed. -/
theorem deleteRoutePreservingSettlement_moves (now : Timestamp) {tenantId : Uuid}
    (userId : Option Uuid) {responseId : String}
    (notOutbox : ∀ b, issued (tenantId, responseId) ≠ .outbox b) :
    TableMoves issued rows
      (deleteRoutePreservingSettlement now tenantId userId responseId rows) := by
  refine TableMoves.trans (filter_moves fun r _ hok dropped => ?_)
    (updateWhere_moves fun r _ hok _ => tombstone hok)
  simp only [Bool.not_eq_false', Bool.and_eq_true, Option.isNone_iff_eq_none] at dropped
  obtain ⟨meant, ownerless⟩ := dropped
  have key := key_of_isResource meant
  cases origin : issued r.key with
  | response b => simpa [ownerless] using hok.account b origin
  | outbox b => exact absurd (key ▸ origin) (notOutbox b)
  | unbilled =>
    cases hst : r.settlement with
    | none => rfl
    | some st => simpa [origin, Origin.billing] using hok.billing st hst

theorem tombstoneNativeResource_moves (now : Timestamp) (tenantId : Uuid) (userId : Option Uuid)
    (responseId : String) (accountId : Uuid) (kind : ResourceKind) :
    TableMoves issued rows
      (tombstoneNativeResource now tenantId userId responseId accountId kind rows) :=
  updateWhere_moves fun _ _ hok _ => tombstone hok

theorem deleteExpired_moves (now : Timestamp) : TableMoves issued rows (deleteExpired now rows) :=
  filter_moves fun r _ _ dropped => by
    simp only [Bool.not_eq_false', Bool.and_eq_true, Option.isNone_iff_eq_none] at dropped
    exact dropped.2

theorem deleteSettledAccountRoutes_moves (accountId : Uuid) :
    TableMoves issued rows (deleteSettledAccountRoutes accountId rows) :=
  filter_moves fun r _ _ dropped => by
    simp only [Bool.not_eq_false', Bool.and_eq_true, Option.isNone_iff_eq_none] at dropped
    exact dropped.1.2

theorem claimDueSettlementsBefore_moves (now : Timestamp) (c : ClaimRequest) :
    TableMoves issued rows (claimDueSettlementsBefore now c rows).2 :=
  updateWhere_moves fun _ _ hok _ => of_same hok rfl rfl rfl id

theorem renewClaimedSettlement_moves (now : Timestamp) (key : AffinityKey)
    (expected duration : Timestamp) :
    TableMoves issued rows (renewClaimedSettlement now key expected duration rows).2 :=
  updateWhere_moves fun _ _ hok _ => of_same hok rfl rfl rfl id

theorem relinquishClaimedSettlement_moves (now : Timestamp) (key : AffinityKey)
    (expected : Timestamp) :
    TableMoves issued rows (relinquishClaimedSettlement now key expected rows) :=
  updateWhere_moves fun _ _ hok _ => of_same hok rfl rfl rfl id

theorem rescheduleClaimedSettlement_moves (now nextPollAt expected : Timestamp) {key : AffinityKey}
    (billing : (issued key).billing = some st.billingRequest) :
    TableMoves issued rows (rescheduleClaimedSettlement now key st nextPollAt expected rows) := by
  unfold rescheduleClaimedSettlement
  split
  · refine updateWhere_moves fun r _ hok leased => ?_
    have hkey : r.key = key := (of_decide_eq_true leased).1
    refine ⟨rfl, ⟨?_, hok.account, hok.hidden⟩, ?_⟩
    · rintro st' hst'
      cases hst'
      exact hkey ▸ billing
    · intro st' hst'
      refine ⟨st, rfl, ?_⟩
      have := hok.billing st' hst'
      rw [hkey, billing] at this
      exact Option.some.inj this
  · exact TableMoves.refl rows

theorem clearSettlements_spec (now : Timestamp) (p : ResponseAffinity → Bool)
    (table : TableOk issued rows) :
    TableOk issued (clearSettlements now p rows) ∧
      ∀ key b, Pending rows key b → Pending (clearSettlements now p rows) key b ∨
        ∃ r ∈ rows, r.key = key ∧ p r ∧ ∃ st, r.settlement = some st ∧ st.billingRequest = b := by
  refine ⟨⟨?_, ?_⟩, ?_⟩
  · unfold clearSettlements
    have keys : ∀ l, (updateWhere (fun r => p r && r.deletedAt.isNone)
        (settled now) l).map key = l.map key :=
      fun _ => map_updateWhere fun _ _ _ => rfl
    rw [keys]
    exact table.unique.sublist (List.filter_sublist.map _)
  · intro r' hr'
    obtain ⟨r, hr, rfl⟩ := mem_updateWhere.mp hr'
    have hok := table.row r (List.mem_of_mem_filter hr)
    split
    · exact ⟨fun _ hst => (nomatch hst), hok.account, hok.hidden⟩
    · exact hok
  · rintro key b ⟨r, hr, rfl, st, hst, rfl⟩
    by_cases selected : p r
    · exact .inr ⟨r, hr, rfl, selected, st, hst, rfl⟩
    · refine .inl ⟨r, mem_updateWhere.mpr ⟨r, ?_, ?_⟩, rfl, st, hst, rfl⟩
      · exact List.mem_filter.mpr ⟨hr, by simp [selected]⟩
      · simp [selected]

end Operations

end KeyCompute.Responses
