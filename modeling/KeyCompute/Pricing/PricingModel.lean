import KeyCompute.Database.Value
import KeyCompute.Relational.Order
import KeyCompute.Relational.Table
import KeyCompute.Rendering.Digits

/-!
# The price list and its cache revisions

Rows of `pricing_models` with their constraints, the trigger that raises the cache revision of a
row's scope, and the three queries of the request path.

* A `PricingDb` carries the constraints of the table.
* A transaction is a list of row changes, committed as a whole or not at all; it reports the scopes
  in which it changed a row.
* A price is an integer number of `10⁻¹⁰` currency units.
-/

namespace KeyCompute.Pricing

open Relational (lookup updateKey orderBy)

inductive PricingScopeType where
  | platform
  | tenant
  deriving DecidableEq

inductive BillingDimension where
  | node
  | providerAccount
  deriving DecidableEq

def BillingDimension.asStr : BillingDimension → String
  | .node => "node"
  | .providerAccount => "provideraccount"

def BillingDimension.other : BillingDimension → BillingDimension
  | .node => .providerAccount
  | .providerAccount => .node

/-- A row of `pricing_models`. -/
structure PricingModel where
  id : Uuid
  scopeType : PricingScopeType
  tenantId : Option Uuid
  modelName : String
  billingDimension : BillingDimension
  currency : String
  inputPricePer1k : ℤ
  outputPricePer1k : ℤ
  isDefault : Bool
  effectiveFrom : Timestamp
  effectiveUntil : Option Timestamp
  createdAt : Timestamp
  deriving DecidableEq

/-- The columns `(scope_type, tenant_id)`, the key of the cache revisions. -/
abbrev Scope := PricingScopeType × Option Uuid

def Scope.platform : Scope := (.platform, none)

def Scope.ofTenant (tenantId : Uuid) : Scope := (.tenant, some tenantId)

namespace PricingModel

def scope (m : PricingModel) : Scope := (m.scopeType, m.tenantId)

/-- `UNIQUE NULLS NOT DISTINCT (tenant_id, model_name, billing_dimension)`. -/
def group (m : PricingModel) : Option Uuid × String × BillingDimension :=
  (m.tenantId, m.modelName, m.billingDimension)

/-- The row is in force: `effective_from <= NOW() AND (effective_until IS NULL OR
effective_until > NOW())`. -/
def effectiveAt (now : Timestamp) (m : PricingModel) : Bool :=
  decide (m.effectiveFrom ≤ now) && m.effectiveUntil.all (now < ·)

/-- `VALUES (effective_from), (effective_until)`, without `NULL`. -/
def boundaries (m : PricingModel) : List Timestamp :=
  m.effectiveFrom :: m.effectiveUntil.toList

/-- The `CHECK` constraints of a row. -/
def Checked (m : PricingModel) : Prop :=
  ((m.scopeType = .platform ∧ m.tenantId = none) ∨ (m.scopeType = .tenant ∧ m.tenantId ≠ none)) ∧
    Text.btrim m.modelName ≠ "" ∧ Text.btrim m.currency ≠ "" ∧ 0 ≤ m.inputPricePer1k ∧
    0 ≤ m.outputPricePer1k ∧ ∀ limit ∈ m.effectiveUntil, m.effectiveFrom < limit

instance (m : PricingModel) : Decidable m.Checked := by unfold Checked; infer_instance

end PricingModel

structure Constraints (models : List PricingModel) : Prop where
  ids : (models.map PricingModel.id).Nodup
  groups : (models.map PricingModel.group).Nodup
  checks : ∀ m ∈ models, m.Checked

instance (models : List PricingModel) : Decidable (Constraints models) :=
  decidable_of_iff ((models.map PricingModel.id).Nodup ∧ (models.map PricingModel.group).Nodup ∧
      ∀ m ∈ models, m.Checked)
    ⟨fun ⟨ids, groups, checks⟩ => ⟨ids, groups, checks⟩, fun h => ⟨h.ids, h.groups, h.checks⟩⟩

/-- A row of `pricing_cache_revisions`. -/
structure CacheRevision where
  scope : Scope
  version : ℕ
  deriving DecidableEq

structure PricingDb where
  models : List PricingModel
  constraints : Constraints models
  revisions : List CacheRevision

/-! ## Changes -/

/-- `advance_pricing_cache_revision`: `INSERT … ON CONFLICT DO UPDATE SET version = version + 1`. -/
def advancePricingCacheRevision (scope : Scope) (revisions : List CacheRevision) :
    List CacheRevision :=
  match lookup CacheRevision.scope scope revisions with
  | some _ => updateKey CacheRevision.scope scope (fun r => { r with version := r.version + 1 })
      revisions
  | none => revisions ++ [⟨scope, 1⟩]

/-- `COALESCE((SELECT version FROM pricing_cache_revisions WHERE …), 0)`. -/
def PricingDb.version (db : PricingDb) (scope : Scope) : ℕ :=
  ((lookup CacheRevision.scope scope db.revisions).map CacheRevision.version).getD 0

inductive RowChange where
  | insert (row : PricingModel)
  | update (id : Uuid) (row : PricingModel)
  | delete (id : Uuid)

/-- New contents of the table, with the trigger fired for the changed row; `none` when a
constraint fails. -/
def PricingDb.store (db : PricingDb) (models : List PricingModel) (scope : Scope) :
    Option PricingDb :=
  if constraints : Constraints models then
    some ⟨models, constraints, advancePricingCacheRevision scope db.revisions⟩
  else none

/-- One row change, with the scope of the row it changed.  The trigger refuses an update of the
scope or the group of a row. -/
def RowChange.perform (db : PricingDb) : RowChange → Option (PricingDb × List Scope)
  | .insert row => (db.store (db.models ++ [row]) row.scope).map (·, [row.scope])
  | .update id row =>
    match lookup PricingModel.id id db.models with
    | none => some (db, [])
    | some old =>
      if row.id = id ∧ row.scope = old.scope ∧ row.group = old.group then
        (db.store (updateKey PricingModel.id id (fun _ => row) db.models) old.scope).map
          (·, [old.scope])
      else none
  | .delete id =>
    match lookup PricingModel.id id db.models with
    | none => some (db, [])
    | some old =>
      (db.store (db.models.filter fun m => m.id ≠ id) old.scope).map (·, [old.scope])

/-- The changes of a transaction in their order, with the scopes they changed. -/
def performAll : List RowChange → PricingDb → Option (PricingDb × List Scope)
  | [], db => some (db, [])
  | change :: rest, db =>
    (change.perform db).bind fun (db', scopes) =>
      (performAll rest db').map fun (db'', scopes') => (db'', scopes ++ scopes')

/-- A transaction: committed as a whole, or rolled back. -/
def PricingDb.commit (db : PricingDb) (changes : List RowChange) : PricingDb × List Scope :=
  (performAll changes db).getD (db, [])

/-! ## Queries of the request path -/

structure PriceQuery where
  tenantId : Uuid
  modelName : String
  dimension : BillingDimension
  deriving DecidableEq

def PriceQuery.ownRow (q : PriceQuery) (m : PricingModel) : Bool :=
  m.modelName = q.modelName && m.billingDimension.asStr = q.dimension.asStr &&
    m.scopeType = .tenant && m.tenantId = some q.tenantId

def PricingModel.platformDefault (m : PricingModel) : Bool :=
  m.scopeType = .platform && m.tenantId = none && m.isDefault

/-- `CASE WHEN scope_type = 'tenant' THEN 0 ELSE 1 END, created_at DESC, id`. -/
def PricingModel.effectiveOrder (m : PricingModel) : ℕ ×ₗ ℤ ×ₗ ℕ :=
  toLex (if m.scopeType = .tenant then 0 else 1, toLex (-m.createdAt, m.id.bits.toNat))

/-- `model_name, billing_dimension, id`. -/
def PricingModel.defaultOrder (m : PricingModel) : String ×ₗ String ×ₗ ℕ :=
  toLex (m.modelName, toLex (m.billingDimension.asStr, m.id.bits.toNat))

/-- The rows `find_effective_for_runtime` selects from. -/
def PriceQuery.eligible (q : PriceQuery) (now : Timestamp) (m : PricingModel) : Bool :=
  (q.ownRow m ||
    (m.modelName = q.modelName && m.billingDimension.asStr = q.dimension.asStr &&
      m.platformDefault)) && m.effectiveAt now

def findEffectiveForRuntime (now : Timestamp) (models : List PricingModel) (q : PriceQuery) :
    Option PricingModel :=
  (orderBy PricingModel.effectiveOrder (models.filter (q.eligible now))).head?

def findRuntimeDefaults (now : Timestamp) (models : List PricingModel) : List PricingModel :=
  orderBy PricingModel.defaultOrder
    (models.filter fun m => m.platformDefault && m.effectiveAt now)

/-- The rows whose validity the cache identity of a query follows. -/
def PriceQuery.watched (q : PriceQuery) (m : PricingModel) : Bool :=
  m.modelName = q.modelName &&
    ((m.scopeType = .tenant && m.tenantId = some q.tenantId &&
      m.billingDimension.asStr = q.dimension.asStr) || m.platformDefault)

/-- The points in time at which a watched row comes into or goes out of force. -/
def PriceQuery.boundaries (q : PriceQuery) (models : List PricingModel) : List Timestamp :=
  (models.filter q.watched).flatMap PricingModel.boundaries

/-- `MIN(boundary) WHERE boundary > statement_timestamp()`. -/
def nextBoundary (now : Timestamp) (models : List PricingModel) (q : PriceQuery) :
    Option Timestamp :=
  ((q.boundaries models).filter (now < ·)).min?

/-- `extract(epoch FROM …)::TEXT`, with its six fractional digits. -/
def epochText (t : Timestamp) : String := String.ofList (Rendering.decimal 6 t)

def boundaryText (boundary : Option Timestamp) : String := (boundary.map epochText).getD "none"

/-- `runtime_cache_revision`: `p{platform}:t{tenant}:b{boundary}`. -/
def runtimeCacheRevision (now : Timestamp) (db : PricingDb) (q : PriceQuery) : String :=
  "p" ++ toString (db.version Scope.platform) ++ ":t" ++
    toString (db.version (Scope.ofTenant q.tenantId)) ++ ":b" ++
    boundaryText (nextBoundary now db.models q)

/-! ## Resolving a price -/

structure PricingSnapshot where
  modelName : String
  currency : String
  inputPricePer1k : ℤ
  outputPricePer1k : ℤ
  deriving DecidableEq

inductive PricingSource where
  | tenantSpecific
  | databaseDefault
  | hardcodedDefault
  deriving DecidableEq

structure SnapshotWithSource where
  snapshot : PricingSnapshot
  source : PricingSource
  deriving DecidableEq

def PricingModel.snapshot (m : PricingModel) : PricingSnapshot :=
  ⟨m.modelName, m.currency, m.inputPricePer1k, m.outputPricePer1k⟩

/-- `get_default_pricing`: 0.1 and 0.3 per thousand tokens. -/
def getDefaultPricing (modelName : String) : PricingSnapshot :=
  ⟨modelName, "CNY", 10 ^ 9, 3 * 10 ^ 9⟩

def findGlobalDefault (defaults : List PricingModel) (q : PriceQuery) : Option PricingModel :=
  (defaults.find? fun m => m.scopeType = .platform && m.modelName = q.modelName &&
      m.billingDimension.asStr = q.dimension.asStr).or
    (defaults.find? fun m => m.scopeType = .platform && m.modelName = q.modelName)

def resolveEffective (m : PricingModel) : SnapshotWithSource :=
  ⟨m.snapshot, if m.scopeType = .platform then .databaseDefault else .tenantSpecific⟩

def resolveDefault (defaults : List PricingModel) (q : PriceQuery) : SnapshotWithSource :=
  match findGlobalDefault defaults q with
  | some m => ⟨m.snapshot, .databaseDefault⟩
  | none => ⟨getDefaultPricing q.modelName, .hardcodedDefault⟩

/-- `load_from_database_with_source`, with both of its queries at one time and state. -/
def loadFromDatabaseWithSource (now : Timestamp) (models : List PricingModel) (q : PriceQuery) :
    SnapshotWithSource :=
  match findEffectiveForRuntime now models q with
  | some m => resolveEffective m
  | none => resolveDefault (findRuntimeDefaults now models) q

end KeyCompute.Pricing
