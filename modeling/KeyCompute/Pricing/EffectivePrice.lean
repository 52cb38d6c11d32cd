import KeyCompute.Pricing.PricingModel

/-!
# The price in force

What the two queries of `load_from_database_with_source` come to: the tenant's own row, then the
platform default of the billing dimension, then that of the other dimension, then the built-in price
(`effectivePrice`).  The unique index makes each of the three rows unique, so the orders of the
queries decide nothing but the precedence (`load_snapshot`).
-/

namespace KeyCompute.Pricing

open PricingModel PriceQuery

open Relational (orderBy head?_orderBy find?_orderBy find?_congr)

variable {now now' : Timestamp} {models models' : List PricingModel} {q : PriceQuery}

/-- The tenant's own row for the query, if it is in force. -/
def tenantOverride (now : Timestamp) (models : List PricingModel) (q : PriceQuery) :
    Option PricingModel :=
  models.find? fun m => q.ownRow m && m.effectiveAt now

/-- The platform default of a model in a billing dimension, if it is in force. -/
def platformPrice (now : Timestamp) (models : List PricingModel) (modelName : String)
    (dimension : BillingDimension) : Option PricingModel :=
  models.find? fun m => m.modelName = modelName && m.billingDimension = dimension &&
    m.platformDefault && m.effectiveAt now

/-- **The price in force**: tenant override, platform default of the dimension, platform
default of the other dimension, built-in price. -/
def effectivePrice (now : Timestamp) (models : List PricingModel) (q : PriceQuery) :
    PricingSnapshot :=
  (((tenantOverride now models q).or (platformPrice now models q.modelName q.dimension)).or
    (platformPrice now models q.modelName q.dimension.other)).elim
      (getDefaultPricing q.modelName) snapshot

/-! ## Uniqueness -/

theorem BillingDimension.asStr_inj {d d' : BillingDimension} : d.asStr = d'.asStr ↔ d = d' := by
  cases d <;> cases d' <;> simp [asStr]

theorem Constraints.eq_of_group (h : Constraints models) {m m' : PricingModel} (hm : m ∈ models)
    (hm' : m' ∈ models) (hgroup : m.group = m'.group) : m = m' :=
  List.inj_on_of_nodup_map h.groups hm hm' hgroup

variable {m : PricingModel} {d : BillingDimension}

theorem ownRow_iff : q.ownRow m ↔
    m.group = (some q.tenantId, q.modelName, q.dimension) ∧ m.scopeType = .tenant := by
  simp only [ownRow, group, Bool.and_eq_true, decide_eq_true_eq,
    BillingDimension.asStr_inj, Prod.mk.injEq]
  tauto

theorem platformDefault_iff :
    m.platformDefault ↔ m.scopeType = .platform ∧ m.tenantId = none ∧ m.isDefault := by
  simp only [platformDefault, Bool.and_eq_true, decide_eq_true_eq]
  tauto

def pricedAs (now : Timestamp) (modelName : String) (dimension : BillingDimension)
    (m : PricingModel) : Bool :=
  m.modelName = modelName && m.billingDimension = dimension && m.platformDefault &&
    m.effectiveAt now

theorem pricedAs_iff {name : String} :
    pricedAs now name d m ↔ m.group = (none, name, d) ∧ m.platformDefault ∧ m.effectiveAt now := by
  simp only [pricedAs, group, platformDefault, Bool.and_eq_true,
    decide_eq_true_eq, Prod.mk.injEq]
  tauto

theorem platformPrice_eq (name : String) (d : BillingDimension) :
    platformPrice now models name d = models.find? (pricedAs now name d) := rfl

theorem Constraints.ownRow_unique (h : Constraints models) {m m' : PricingModel} (hm : m ∈ models)
    (hm' : m' ∈ models) (hown : q.ownRow m) (hown' : q.ownRow m') : m = m' :=
  h.eq_of_group hm hm' ((ownRow_iff.mp hown).1.trans (ownRow_iff.mp hown').1.symm)

theorem Constraints.pricedAs_unique (h : Constraints models) {name : String} {m m' : PricingModel}
    (hm : m ∈ models) (hm' : m' ∈ models) (hp : pricedAs now name d m)
    (hp' : pricedAs now name d m') : m = m' :=
  h.eq_of_group hm hm' ((pricedAs_iff.mp hp).1.trans (pricedAs_iff.mp hp').1.symm)

/-! ## The queries without their orders -/

theorem eligible_iff : q.eligible now m ↔
    (q.ownRow m ∧ m.effectiveAt now) ∨ pricedAs now q.modelName q.dimension m := by
  simp only [eligible, pricedAs, Bool.and_eq_true, Bool.or_eq_true, decide_eq_true_eq,
    BillingDimension.asStr_inj]
  tauto

theorem scopeType_of_effectiveOrder_le {m m' : PricingModel} (hm' : m'.scopeType = .tenant)
    (hle : m.effectiveOrder ≤ m'.effectiveOrder) : m.scopeType = .tenant := by
  by_contra hne
  simp only [effectiveOrder, hne, hm', if_true, if_false, Prod.Lex.toLex_le_toLex] at hle
  omega

theorem findEffectiveForRuntime_eq (h : Constraints models) :
    findEffectiveForRuntime now models q =
      (tenantOverride now models q).or (platformPrice now models q.modelName q.dimension) := by
  cases hfound : findEffectiveForRuntime now models q with
  | none =>
    have hempty := Relational.head?_orderBy_eq_none.mp hfound
    rw [List.filter_eq_nil_iff] at hempty
    have hown : tenantOverride now models q = none := List.find?_eq_none.mpr fun m hm hp =>
      hempty m hm (eligible_iff.mpr (.inl (by simpa using hp)))
    have hplatform : platformPrice now models q.modelName q.dimension = none :=
      List.find?_eq_none.mpr fun m hm hp => hempty m hm (eligible_iff.mpr (.inr hp))
    rw [hown, hplatform, Option.or_none]
  | some m =>
    obtain ⟨hmem, hleast⟩ := head?_orderBy hfound
    obtain ⟨hm, heligible⟩ := List.mem_filter.mp hmem
    cases hown : tenantOverride now models q with
    | some m' =>
      -- the override is selected too, so the first row cannot be a platform row
      have hm' := List.mem_of_find?_eq_some hown
      have hown' : q.ownRow m' ∧ m'.effectiveAt now := by simpa using List.find?_some hown
      have hle := hleast m' (List.mem_filter.mpr ⟨hm', eligible_iff.mpr (.inl hown')⟩)
      have htenant : m.scopeType = .tenant :=
        scopeType_of_effectiveOrder_le (ownRow_iff.mp hown'.1).2 hle
      obtain ⟨hrow, -⟩ | hrow := eligible_iff.mp heligible
      · rw [h.ownRow_unique hm hm' hrow hown'.1]
        rfl
      · have hplatform := (platformDefault_iff.mp (pricedAs_iff.mp hrow).2.1).1
        rw [htenant] at hplatform
        exact absurd hplatform (by decide)
    | none =>
      obtain hrow | hrow := eligible_iff.mp heligible
      · exact absurd (by simpa using hrow) (List.find?_eq_none.mp hown m hm)
      · cases hprice : platformPrice now models q.modelName q.dimension with
        | none => exact absurd hrow (List.find?_eq_none.mp hprice m hm)
        | some m' =>
          have hm' := List.mem_of_find?_eq_some hprice
          rw [h.pricedAs_unique hm hm' hrow (List.find?_some hprice)]
          rfl

theorem find?_findRuntimeDefaults (h : Constraints models) {name : String} :
    (findRuntimeDefaults now models).find? (fun m => m.scopeType = .platform &&
      m.modelName = name && m.billingDimension.asStr = d.asStr) =
        platformPrice now models name d := by
  have hiff : ∀ m, ((m.platformDefault && m.effectiveAt now) = true ∧ (m.scopeType = .platform &&
      m.modelName = name && m.billingDimension.asStr = d.asStr) = true) ↔
        pricedAs now name d m := by
    intro m
    simp only [pricedAs, Bool.and_eq_true, decide_eq_true_eq, BillingDimension.asStr_inj,
      platformDefault_iff]
    tauto
  rw [findRuntimeDefaults, find?_orderBy, List.find?_filter, platformPrice_eq]
  · simp_all
  · intro a ha b hb hpa hpb
    obtain ⟨ha, hfa⟩ := List.mem_filter.mp ha
    obtain ⟨hb, hfb⟩ := List.mem_filter.mp hb
    exact h.pricedAs_unique ha hb ((hiff a).mp ⟨hfa, hpa⟩) ((hiff b).mp ⟨hfb, hpb⟩)

theorem BillingDimension.eq_or_eq_other (d d' : BillingDimension) : d' = d ∨ d' = d.other := by
  cases d <;> cases d' <;> simp [other]

theorem findGlobalDefault_eq (h : Constraints models) :
    findGlobalDefault (findRuntimeDefaults now models) q =
      (platformPrice now models q.modelName q.dimension).or
        (platformPrice now models q.modelName q.dimension.other) := by
  rw [findGlobalDefault, find?_findRuntimeDefaults h]
  cases hprice : platformPrice now models q.modelName q.dimension with
  | some m => rfl
  | none =>
    -- without a default of the dimension itself the second search meets the other one only
    rw [Option.none_or, Option.none_or, ← find?_findRuntimeDefaults h]
    apply find?_congr
    intro m hm
    obtain ⟨hm, hdefault⟩ := List.mem_filter.mp (Relational.mem_orderBy.mp hm)
    have hnot := List.find?_eq_none.mp hprice m hm
    rw [Bool.and_eq_true] at hdefault
    by_cases hname : m.modelName = q.modelName
    · have hother : m.billingDimension = q.dimension.other := by
        obtain hd | hd := q.dimension.eq_or_eq_other m.billingDimension
        · exact absurd (by simp [hname, hd, hdefault]) hnot
        · exact hd
      simp [hname, hother]
    · simp [hname]

/-- **`load_from_database_with_source` computes the price in force.** -/
theorem load_snapshot (h : Constraints models) :
    (loadFromDatabaseWithSource now models q).snapshot = effectivePrice now models q := by
  rw [loadFromDatabaseWithSource, findEffectiveForRuntime_eq h, effectivePrice]
  cases hfirst : (tenantOverride now models q).or
      (platformPrice now models q.modelName q.dimension) with
  | some m => rfl
  | none => grind [Option.or_eq_none_iff.mp, resolveDefault, findGlobalDefault_eq]

/-! ## What the price depends on -/

def PriceQuery.visible (q : PriceQuery) (m : PricingModel) : Bool :=
  m.scope = Scope.platform || m.scope = Scope.ofTenant q.tenantId

theorem visible_of_watched (h : q.watched m) : q.visible m := by
  simp only [watched, platformDefault, Bool.and_eq_true, Bool.or_eq_true,
    decide_eq_true_eq] at h
  simp only [visible, scope, Scope.platform, Scope.ofTenant,
    Bool.or_eq_true, decide_eq_true_eq, Prod.mk.injEq]
  tauto

theorem watched_of_ownRow (h : q.ownRow m) : q.watched m := by
  simp only [ownRow, Bool.and_eq_true, decide_eq_true_eq] at h
  simp only [watched, Bool.and_eq_true, Bool.or_eq_true, decide_eq_true_eq]
  tauto

theorem watched_of_pricedAs (h : pricedAs now q.modelName d m) : q.watched m := by
  obtain ⟨hgroup, hdefault, -⟩ := pricedAs_iff.mp h
  simp only [group, Prod.mk.injEq] at hgroup
  simp [watched, hgroup, hdefault]

theorem find?_eq_of_visible {p : PricingModel → Bool} (hp : ∀ m, p m → q.watched m)
    (hrows : models'.filter q.visible = models.filter q.visible) :
    models'.find? p = models.find? p := by
  have hfind : ∀ rows : List PricingModel, rows.find? p = (rows.filter q.visible).find? p := by
    intro rows
    rw [List.find?_filter]
    apply find?_congr
    intro m _
    rw [Bool.eq_iff_iff, decide_eq_true_eq]
    exact ⟨fun hm => ⟨visible_of_watched (hp m hm), hm⟩, fun hm => hm.2⟩
  rw [hfind, hrows, ← hfind]

/-- No watched row comes into or goes out of force between the two times. -/
def PriceQuery.Settled (q : PriceQuery) (models : List PricingModel)
    (now now' : Timestamp) : Prop :=
  ∀ b ∈ q.boundaries models, ¬ (now < b ∧ b ≤ now')

theorem reached_iff {b t t' : ℤ} (hle : t ≤ t') (h : ¬ (t < b ∧ b ≤ t')) : b ≤ t' ↔ b ≤ t := by
  omega

theorem PriceQuery.Settled.effectiveAt (h : q.Settled models now now') (hle : now ≤ now')
    (hm : m ∈ models) (hwatched : q.watched m) :
    m.effectiveAt now' = m.effectiveAt now := by
  have hboundary : ∀ b ∈ m.boundaries, ¬ (now < b ∧ b ≤ now') := fun b hb =>
    h b (List.mem_flatMap.mpr ⟨m, List.mem_filter.mpr ⟨hm, hwatched⟩, hb⟩)
  have hfrom := hboundary m.effectiveFrom List.mem_cons_self
  have hstart : decide (m.effectiveFrom ≤ now') = decide (m.effectiveFrom ≤ now) := by
    rw [decide_eq_decide, reached_iff hle hfrom]
  have hend : m.effectiveUntil.all (now' < ·) = m.effectiveUntil.all (now < ·) := by
    cases hlimit : m.effectiveUntil with
    | none => rfl
    | some limit => grind [reached_iff, PricingModel.boundaries]
  rw [PricingModel.effectiveAt, PricingModel.effectiveAt, hstart, hend]

theorem find?_eq_of_settled {p : PricingModel → Bool} (hsettled : q.Settled models now now')
    (hle : now ≤ now') (hp : ∀ m, p m → q.watched m) :
    (models.find? fun m => p m && m.effectiveAt now') =
      models.find? fun m => p m && m.effectiveAt now := by
  apply find?_congr
  intro m hm
  cases hpm : p m with
  | false => rfl
  | true => rw [hsettled.effectiveAt hle hm (hp m hpm)]

section Dependence

variable (h : Constraints models)
include h

theorem findEffectiveForRuntime_eq_of_rows (h' : Constraints models')
    (hrows : models'.filter q.visible = models.filter q.visible) :
    findEffectiveForRuntime now models' q = findEffectiveForRuntime now models q := by
  have hown : tenantOverride now models' q = tenantOverride now models q :=
    find?_eq_of_visible (fun m hm => watched_of_ownRow (Bool.and_eq_true_iff.mp hm).1) hrows
  rw [findEffectiveForRuntime_eq h, findEffectiveForRuntime_eq h', hown, platformPrice_eq,
    platformPrice_eq, find?_eq_of_visible (fun m hm => watched_of_pricedAs hm) hrows]

theorem findGlobalDefault_eq_of_rows (h' : Constraints models')
    (hrows : models'.filter q.visible = models.filter q.visible) :
    findGlobalDefault (findRuntimeDefaults now models') q =
      findGlobalDefault (findRuntimeDefaults now models) q := by
  have hprice : ∀ d, platformPrice now models' q.modelName d =
    platformPrice now models q.modelName d :=
    fun d => find?_eq_of_visible (fun m hm => watched_of_pricedAs hm) hrows
  rw [findGlobalDefault_eq h, findGlobalDefault_eq h', hprice, hprice]

theorem load_eq_of_rows (h' : Constraints models')
    (hrows : models'.filter q.visible = models.filter q.visible) :
    loadFromDatabaseWithSource now models' q = loadFromDatabaseWithSource now models q := by
  simp only [loadFromDatabaseWithSource, resolveDefault,
    findEffectiveForRuntime_eq_of_rows h h' hrows,
    findGlobalDefault_eq_of_rows h h' hrows]

omit h in
theorem platformPrice_eq_of_settled (hsettled : q.Settled models now now') (hle : now ≤ now')
    (d : BillingDimension) :
    platformPrice now' models q.modelName d = platformPrice now models q.modelName d := by
  apply find?_eq_of_settled hsettled hle
  intro m hm
  simp only [Bool.and_eq_true, decide_eq_true_eq] at hm
  simp [watched, hm]

theorem findEffectiveForRuntime_eq_of_settled (hsettled : q.Settled models now now')
    (hle : now ≤ now') :
    findEffectiveForRuntime now' models q = findEffectiveForRuntime now models q := by
  have hown : tenantOverride now' models q = tenantOverride now models q :=
    find?_eq_of_settled hsettled hle fun m hm => watched_of_ownRow hm
  rw [findEffectiveForRuntime_eq h, findEffectiveForRuntime_eq h, hown,
    platformPrice_eq_of_settled hsettled hle]

theorem load_eq_of_settled (hsettled : q.Settled models now now') (hle : now ≤ now') :
    loadFromDatabaseWithSource now' models q = loadFromDatabaseWithSource now models q := by
  simp only [loadFromDatabaseWithSource, resolveDefault,
    findEffectiveForRuntime_eq_of_settled h hsettled hle, findGlobalDefault_eq h,
    platformPrice_eq_of_settled hsettled hle]

end Dependence

end KeyCompute.Pricing
