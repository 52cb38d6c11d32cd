import KeyCompute.Cache.Versioning
import KeyCompute.Database.UuidText
import KeyCompute.Pricing.EffectivePrice

/-!
# The identity of a cached price

A cache key is the text of tenant, model and billing dimension, the two revisions and the next
validity boundary.  The model name may contain the separator itself, but the text still determines
every part (`text_injective`): the tenant is cut off by its width, the rest by the last separators.

The keys follow the committed price list and the clock in the sense of `Cache.Versioning`.  A change
of a visible row raises a revision; the clock leaves a key at the boundary in it.
-/

namespace KeyCompute.Pricing

open Rendering Scope List

open Relational (lookup updateKey)
open Cache (Versioning)

def cacheKey (q : PriceQuery) : String :=
  toString q.tenantId ++ ":" ++ q.modelName ++ ":" ++ q.dimension.asStr

/-- The key of `create_snapshot`. -/
def snapshotKey (now : Timestamp) (db : PricingDb) (q : PriceQuery) : String :=
  cacheKey q ++ ":" ++ runtimeCacheRevision now db q

structure CacheIdentity where
  query : PriceQuery
  platformVersion : ℕ
  tenantVersion : ℕ
  boundary : Option Timestamp
  deriving DecidableEq

def CacheIdentity.text (i : CacheIdentity) : String :=
  cacheKey i.query ++ ":" ++ ("p" ++ toString i.platformVersion ++ ":t" ++
    toString i.tenantVersion ++ ":b" ++ boundaryText i.boundary)

def identity (now : Timestamp) (db : PricingDb) (q : PriceQuery) : CacheIdentity :=
  ⟨q, db.version platform, db.version (ofTenant q.tenantId),
    nextBoundary now db.models q⟩

theorem snapshotKey_eq (now : Timestamp) (db : PricingDb) (q : PriceQuery) :
    snapshotKey now db q = (identity now db q).text := rfl

/-! ## The text determines the parts -/

theorem boundaryText_injective : Function.Injective boundaryText := by
  have hnone : ∀ t, epochText t ≠ "none" := by
    intro t h
    have hmem : 'o' ∈ decimal 6 t := by
      rw [← String.toList_ofList (l := decimal 6 t)]
      rw [show String.ofList (decimal 6 t) = "none" from h]
      decide
    exact absurd (mem_decimal hmem) (by decide)
  intro a b h
  cases a with
  | none =>
    cases b with
    | none => rfl
    | some t => exact absurd h.symm (hnone t)
  | some t =>
    cases b with
    | none => exact absurd h (hnone t)
    | some t' =>
      have htext : epochText t = epochText t' := h
      have hdigits : decimal 6 t = decimal 6 t' :=
        String.ofList_injective htext
      rw [decimal_injective (by omega) hdigits]

theorem colon_not_mem_boundaryText (b : Option Timestamp) : ':' ∉ (boundaryText b).toList := by
  intro hmem
  cases b with
  | none => exact absurd hmem (by decide)
  | some t =>
    have hmem : ':' ∈ decimal 6 t := by
      simpa [boundaryText, epochText] using hmem
    exact absurd (mem_decimal hmem) (by decide)

theorem toList_toString_nat (n : ℕ) : (toString n).toList = Nat.toDigits 10 n := by
  rw [Nat.toString_eq_ofList_toDigits, String.toList_ofList]

theorem colon_not_mem_digits (n : ℕ) : ':' ∉ (toString n).toList := by
  intro hmem
  rw [toList_toString_nat] at hmem
  exact absurd (Nat.isDigit_of_mem_toDigits (by omega) (by omega) hmem) (by decide)

theorem digits_injective {m n : ℕ} (h : (toString m).toList = (toString n).toList) : m = n := by
  rw [toList_toString_nat, toList_toString_nat] at h
  exact toDigits_ten_injective h

theorem colon_not_mem_asStr (d : BillingDimension) : ':' ∉ d.asStr.toList := by
  cases d <;> decide

theorem toList_text (i : CacheIdentity) :
    i.text.toList = (((((toString i.query.tenantId).toList ++ (':' :: i.query.modelName.toList)) ++
      ':' :: i.query.dimension.asStr.toList) ++ ':' :: ('p' ::
      (toString i.platformVersion).toList)) ++
      ':' :: ('t' :: (toString i.tenantVersion).toList)) ++
      ':' :: ('b' :: (boundaryText i.boundary).toList) := by
  simp [CacheIdentity.text, cacheKey, String.toList_append]

theorem text_injective : Function.Injective CacheIdentity.text := by
  intro i j h
  have hlist := congrArg String.toList h
  rw [toList_text, toList_text] at hlist
  have hfree : ∀ {c : Char} {l : List Char}, c ≠ ':' → ':' ∉ l → ':' ∉ c :: l := by
    intro c l hc hl hmem
    obtain rfl | hmem := mem_cons.mp hmem
    · exact hc rfl
    · exact hl hmem
  obtain ⟨hlist, hb⟩ := cut_last
    (hfree (by decide) (colon_not_mem_boundaryText _))
    (hfree (by decide) (colon_not_mem_boundaryText _)) hlist
  obtain ⟨hlist, ht⟩ := cut_last (hfree (by decide) (colon_not_mem_digits _))
    (hfree (by decide) (colon_not_mem_digits _)) hlist
  obtain ⟨hlist, hp⟩ := cut_last (hfree (by decide) (colon_not_mem_digits _))
    (hfree (by decide) (colon_not_mem_digits _)) hlist
  obtain ⟨hlist, hd⟩ := cut_last (colon_not_mem_asStr _) (colon_not_mem_asStr _) hlist
  -- what is left is tenant and model; here the separators cannot be trusted, the width can
  obtain ⟨hu, hm⟩ := append_inj hlist (by rw [Uuid.length_toString, Uuid.length_toString])
  have htenant : i.query.tenantId = j.query.tenantId :=
    Uuid.toString_injective (String.toList_injective hu)
  have hmodel : i.query.modelName = j.query.modelName :=
    String.toList_injective (cons.inj hm).2
  have hdim : i.query.dimension = j.query.dimension :=
    BillingDimension.asStr_inj.mp (String.toList_injective hd)
  have hpv := digits_injective (cons.inj hp).2
  have htv := digits_injective (cons.inj ht).2
  have hbv := boundaryText_injective (String.toList_injective (cons.inj hb).2)
  obtain ⟨⟨_, _, _⟩, _, _, _⟩ := i
  obtain ⟨⟨_, _, _⟩, _, _, _⟩ := j
  simp_all

variable {q : PriceQuery} {db db' : PricingDb} {models : List PricingModel} {scopes : List Scope}
  {s s' : PricingState}

theorem identity_of_snapshotKey {now now' : Timestamp} {q q' : PriceQuery}
    (h : snapshotKey now db q = snapshotKey now' db' q') :
    identity now db q = identity now' db' q' := by
  rw [snapshotKey_eq, snapshotKey_eq] at h
  exact text_injective h

/-! ## What a transaction does to the revisions -/

/-- The revisions rise in the changed scopes, and nothing else happens outside them. -/
structure Changed (db db' : PricingDb) (scopes : List Scope) : Prop where
  raised : ∀ scope ∈ scopes, db.version scope < db'.version scope
  kept : ∀ scope ∉ scopes, db'.version scope = db.version scope
  rows : ∀ p : PricingModel → Bool, (∀ m, p m → m.scope ∉ scopes) →
    db'.models.filter p = db.models.filter p

theorem Changed.refl (db : PricingDb) : Changed db db [] :=
  ⟨fun _ h => absurd h not_mem_nil, fun _ _ => rfl, fun _ _ => rfl⟩

theorem Changed.le (h : Changed db db' scopes) (scope : Scope) :
    db.version scope ≤ db'.version scope := by
  by_cases hmem : scope ∈ scopes
  · exact Nat.le_of_lt (h.raised scope hmem)
  · exact Nat.le_of_eq (h.kept scope hmem).symm

theorem Changed.trans {db db' db'' : PricingDb} {scopes scopes' : List Scope}
    (h : Changed db db' scopes) (h' : Changed db' db'' scopes') :
    Changed db db'' (scopes ++ scopes') := by
  refine ⟨fun scope hmem => ?_, fun scope hmem => ?_, fun p hp => ?_⟩
  · obtain hmem | hmem := mem_append.mp hmem
    · exact (h.raised scope hmem).trans_le (h'.le scope)
    · exact (h.le scope).trans_lt (h'.raised scope hmem)
  · grind [mem_append.mpr, Changed]
  · grind [mem_append_right, mem_append_left, Changed]

theorem lookup_advance (scope scope' : Scope) (revisions : List CacheRevision) :
    ((lookup CacheRevision.scope scope' (advancePricingCacheRevision scope revisions)).map
      CacheRevision.version).getD 0 =
    ((lookup CacheRevision.scope scope' revisions).map CacheRevision.version).getD 0 +
      if scope' = scope then 1 else 0 := by
  unfold advancePricingCacheRevision
  cases hfound : lookup CacheRevision.scope scope revisions with
  | none => grind [Relational.lookup_append, Relational.lookup_singleton]
  | some r =>
    have hscope : ∀ r : CacheRevision,
        ({ r with version := r.version + 1 } : CacheRevision).scope = r.scope := fun _ => rfl
    simp only
    rw [Relational.lookup_updateKey hscope]
    by_cases heq : scope' = scope
    · subst heq
      simp [hfound]
    · simp [heq]

theorem store_changed {scope : Scope} (hstore : db.store models scope = some db')
    (hrows : ∀ p : PricingModel → Bool, (∀ m, p m → m.scope ≠ scope) →
      models.filter p = db.models.filter p) : Changed db db' [scope] := by
  unfold PricingDb.store at hstore
  split at hstore
  · obtain rfl := Option.some.inj hstore
    refine ⟨fun scope' hmem => ?_, fun scope' hmem => ?_, fun p hp => ?_⟩
    · obtain rfl := mem_singleton.mp hmem
      simp [PricingDb.version, lookup_advance]
    · have hne : scope' ≠ scope := fun h => hmem (mem_singleton.mpr h)
      simp [PricingDb.version, lookup_advance, hne]
    · exact hrows p fun m hm h => hp m hm (mem_singleton.mpr h)
  · exact absurd hstore (by simp)

theorem RowChange.perform_changed {change : RowChange}
    (h : change.perform db = some (db', scopes)) :
    Changed db db' scopes := by
  cases change with
  | insert row =>
    obtain ⟨_, hstore, heq⟩ := Option.map_eq_some_iff.mp h
    obtain ⟨rfl, rfl⟩ := Prod.mk.inj heq
    apply store_changed hstore
    intro p hp
    have hrow : p row = false := by
      by_contra hrow
      exact hp row (by simpa using hrow) rfl
    simp [filter_append, hrow]
  | update id row =>
    simp only [RowChange.perform] at h
    cases hfound : lookup PricingModel.id id db.models with
    | none => grind [Changed.refl, Changed]
    | some old =>
      rw [hfound] at h
      simp only at h
      split at h
      · rename_i hsame
        obtain ⟨_, hstore, heq⟩ := Option.map_eq_some_iff.mp h
        obtain ⟨rfl, rfl⟩ := Prod.mk.inj heq
        apply store_changed hstore
        intro p hp
        have hnot : ∀ m, m.scope = old.scope → p m = false := by grind [Changed]
        apply Relational.filter_updateWhere_of_not
        intro m hm hid
        have hold : m = old := by
          have hlookup := (Relational.lookup_eq_some db.constraints.ids).mpr
            ⟨hm, by simpa using hid⟩
          exact Option.some.inj (hlookup.symm.trans hfound)
        exact ⟨hnot row hsame.2.1, hnot m (by rw [hold])⟩
      · exact absurd h (by simp)
  | delete id =>
    simp only [RowChange.perform] at h
    cases hfound : lookup PricingModel.id id db.models with
    | none => grind [Changed.refl, Changed]
    | some old =>
      rw [hfound] at h
      obtain ⟨_, hstore, heq⟩ := Option.map_eq_some_iff.mp h
      obtain ⟨rfl, rfl⟩ := Prod.mk.inj heq
      apply store_changed hstore
      intro p hp
      rw [filter_filter]
      apply filter_congr
      intro m hm
      cases hpm : p m with
      | false => rfl
      | true =>
        have hne : m.id ≠ id := by
          intro hid
          have hlookup := (Relational.lookup_eq_some db.constraints.ids).mpr ⟨hm, hid⟩
          have hold : m = old := Option.some.inj (hlookup.symm.trans hfound)
          exact hp m hpm (by rw [hold])
        simp [hne]

theorem performAll_changed {changes : List RowChange}
    (h : performAll changes db = some (db', scopes)) : Changed db db' scopes := by
  induction changes generalizing db scopes with
  | nil =>
    obtain ⟨rfl, rfl⟩ := Prod.mk.inj (Option.some.inj h)
    exact Changed.refl db
  | cons change rest ih =>
    obtain ⟨⟨db₁, scopes₁⟩, hchange, h⟩ := Option.bind_eq_some_iff.mp h
    obtain ⟨⟨db₂, scopes₂⟩, hrest, heq⟩ := Option.map_eq_some_iff.mp h
    obtain ⟨rfl, rfl⟩ := Prod.mk.inj heq
    exact (RowChange.perform_changed hchange).trans (ih hrest)

theorem commit_changed (db : PricingDb) (changes : List RowChange) :
    Changed db (db.commit changes).1 (db.commit changes).2 := by
  unfold PricingDb.commit
  cases h : performAll changes db with
  | none => exact Changed.refl db
  | some result => exact performAll_changed h

/-! ## Boundaries -/

theorem boundaries_eq_of_rows {models models' : List PricingModel}
    (hrows : models'.filter q.visible = models.filter q.visible) :
    q.boundaries models' = q.boundaries models := by
  have hwatched : ∀ rows : List PricingModel, rows.filter q.watched =
      (rows.filter q.visible).filter q.watched := by
    intro rows
    rw [filter_filter]
    apply filter_congr
    intro m _
    cases hm : q.watched m with
    | false => rfl
    | true => rw [visible_of_watched hm]
              rfl
  rw [PriceQuery.boundaries, hwatched, hrows, ← hwatched, PriceQuery.boundaries]

theorem nextBoundary_le {now : Timestamp} {b : Timestamp} (hb : b ∈ q.boundaries models)
    (hahead : now < b) :
    ∃ b₀, nextBoundary now models q = some b₀ ∧ b₀ ≤ b := by
  have hmem : b ∈ (q.boundaries models).filter (now < ·) :=
    mem_filter.mpr ⟨hb, by simpa using hahead⟩
  cases hmin : nextBoundary now models q with
  | none =>
    rw [nextBoundary, min?_eq_none_iff] at hmin
    exact absurd (hmin ▸ hmem) not_mem_nil
  | some b₀ => exact ⟨b₀, rfl, (min?_eq_some_iff.mp hmin).2 b hmem⟩

theorem lt_nextBoundary {now : Timestamp} {b : Timestamp} (h : nextBoundary now models q = some b) :
    now < b := by
  have hmem := (min?_eq_some_iff.mp h).1
  simpa using (mem_filter.mp hmem).2

theorem nextBoundary_eq_of_settled {now now' : Timestamp} (hsettled : q.Settled models now now')
    (hle : now ≤ now') :
    nextBoundary now' models q = nextBoundary now models q := by
  unfold nextBoundary
  congr 1
  apply filter_congr
  intro b hb
  rw [decide_eq_decide, ← not_le, ← not_le, reached_iff hle (hsettled b hb)]

/-! ## The keys follow the price list and the clock -/

abbrev PricingState := PricingDb × Timestamp

/-- `find_effective_for_runtime` at a state. -/
def effectiveRow (s : PricingState) (q : PriceQuery) : Option PricingModel :=
  findEffectiveForRuntime s.2 s.1.models q

/-- `load_from_database_with_source` at a state. -/
def load (s : PricingState) (q : PriceQuery) : SnapshotWithSource :=
  loadFromDatabaseWithSource s.2 s.1.models q

/-- The second half of `load_from_database_with_source` at a state. -/
def fallback (s : PricingState) (q : PriceQuery) : SnapshotWithSource :=
  resolveDefault (findRuntimeDefaults s.2 s.1.models) q

theorem load_of_effectiveRow {s : PricingState} {m : PricingModel} (h : effectiveRow s q = some m) :
    load s q = resolveEffective m := by
  rw [effectiveRow] at h
  simp only [load, loadFromDatabaseWithSource, h]

theorem load_of_none {s : PricingState} (h : effectiveRow s q = none) :
    load s q = fallback s q := by
  rw [effectiveRow] at h
  simp only [load, loadFromDatabaseWithSource, h, fallback]

/-- A transaction commits, or time passes. -/
inductive Moves : PricingState → PricingState → Prop
  | commit (db : PricingDb) (now : Timestamp) (changes : List RowChange) :
      Moves (db, now) ((db.commit changes).1, now)
  | tick (db : PricingDb) {now now' : Timestamp} (hle : now ≤ now') : Moves (db, now) (db, now')

/-- The identity was current at this state or before: its revisions are not ahead, and while
they are the current ones, no boundary ahead lies before its own. -/
def CacheIdentity.Past (i : CacheIdentity) (s : PricingState) : Prop :=
  i.platformVersion ≤ s.1.version platform ∧
    i.tenantVersion ≤ s.1.version (ofTenant i.query.tenantId) ∧
    (i.platformVersion = s.1.version platform →
      i.tenantVersion = s.1.version (ofTenant i.query.tenantId) →
      ∀ b ∈ i.query.boundaries s.1.models, s.2 < b → ∃ b₀, i.boundary = some b₀ ∧ b₀ ≤ b)

theorem past_identity (s : PricingState) (q : PriceQuery) : (identity s.2 s.1 q).Past s :=
  ⟨Nat.le_refl _, Nat.le_refl _, fun _ _ _ hb hahead => nextBoundary_le hb hahead⟩

theorem Changed.visible (h : Changed db db' scopes)
    (hp : db'.version platform ≤ db.version platform)
    (ht : db'.version (ofTenant q.tenantId) ≤ db.version (ofTenant q.tenantId)) :
    db'.models.filter q.visible = db.models.filter q.visible := by
  apply h.rows
  intro m hm hmem
  have hscope : m.scope = platform ∨ m.scope = ofTenant q.tenantId := by
    simpa [PriceQuery.visible] using hm
  have hraised := h.raised m.scope hmem
  obtain heq | heq := hscope <;> rw [heq] at hraised <;> omega

theorem CacheIdentity.Past.move {i : CacheIdentity} (hmove : Moves s s') (h : i.Past s) :
    i.Past s' := by
  obtain ⟨hp, ht, hahead⟩ := h
  cases hmove with
  | commit db now changes =>
    have hchanged := commit_changed db changes
    refine ⟨hp.trans (hchanged.le _), ht.trans (hchanged.le _), fun hp' ht' => ?_⟩
    dsimp only at hp ht hahead hp' ht' ⊢
    have hple := hchanged.le platform
    have htle := hchanged.le (ofTenant i.query.tenantId)
    rw [boundaries_eq_of_rows (hchanged.visible (by omega) (by omega))]
    exact hahead (by omega) (by omega)
  | tick db hle =>
    exact ⟨hp, ht, fun hp' ht' b hb hb' => hahead hp' ht' b hb (lt_of_le_of_lt hle hb')⟩

theorem identity_back {i : CacheIdentity} (hmove : Moves s s') (hpast : i.Past s)
    (hcurrent : identity s'.2 s'.1 q = i) :
    s'.1.models.filter q.visible = s.1.models.filter q.visible ∧
      q.Settled s.1.models s.2 s'.2 ∧ s.2 ≤ s'.2 ∧ identity s.2 s.1 q = i := by
  subst hcurrent
  obtain ⟨hp, ht, hahead⟩ := hpast
  cases hmove with
  | commit db now changes =>
    have hchanged := commit_changed db changes
    have hple := hchanged.le platform
    have htle := hchanged.le (ofTenant q.tenantId)
    dsimp only [identity] at hp ht ⊢
    have hrows := hchanged.visible (q := q) (by omega) (by omega)
    refine ⟨hrows, fun b _ hb => absurd hb.1 (not_lt.mpr hb.2), le_refl _, ?_⟩
    have hnext : nextBoundary now (db.commit changes).1.models q =
      nextBoundary now db.models q := by
      rw [nextBoundary, nextBoundary, boundaries_eq_of_rows hrows]
    rw [hnext, Nat.le_antisymm hp hple, Nat.le_antisymm ht htle]
  | tick db hle =>
    dsimp only [identity] at hahead ⊢
    -- a boundary reached meanwhile would be no later than one that is still ahead
    rename_i now now'
    have hsettled : q.Settled db.models now now' := by
      intro b hb ⟨hb₁, hb₂⟩
      obtain ⟨b₀, hnext, hle₀⟩ := hahead rfl rfl b hb hb₁
      exact absurd (lt_nextBoundary hnext) (not_lt.mpr (hle₀.trans hb₂))
    exact ⟨rfl, hsettled, hle, by rw [nextBoundary_eq_of_settled hsettled hle]⟩

def versioning : Versioning PricingState PriceQuery String where
  key s q := snapshotKey s.2 s.1 q
  Move := Moves
  Issued s k := ∃ i : CacheIdentity, k = i.text ∧ i.Past s
  key_request h := congrArg CacheIdentity.query (identity_of_snapshotKey h)
  issued_key s q := ⟨identity s.2 s.1 q, rfl, past_identity s q⟩
  issued_move hmove := fun ⟨i, hi, hpast⟩ => ⟨i, hi, hpast.move hmove⟩
  key_back := by
    rintro s s' k q hmove ⟨i, rfl, hpast⟩ hkey
    rw [snapshotKey_eq] at hkey ⊢
    obtain ⟨-, -, -, hback⟩ := identity_back hmove hpast (text_injective hkey)
    rw [hback]

theorem versioning_key (s : PricingState) (q : PriceQuery) :
    versioning.key s q = snapshotKey s.2 s.1 q := rfl

theorem rows_of_key_eq (hmove : Moves s s') (hkey : versioning.key s' q = versioning.key s q) :
    s'.1.models.filter q.visible = s.1.models.filter q.visible ∧
      q.Settled s.1.models s.2 s'.2 ∧ s.2 ≤ s'.2 := by
  obtain ⟨hrows, hsettled, hle, -⟩ :=
    identity_back hmove (past_identity s q) (identity_of_snapshotKey hkey)
  exact ⟨hrows, hsettled, hle⟩

theorem stable_effective : versioning.Stable effectiveRow := by
  intro s s' q hmove hkey
  obtain ⟨hrows, hsettled, hle⟩ := rows_of_key_eq hmove hkey
  rw [effectiveRow, effectiveRow,
    findEffectiveForRuntime_eq_of_rows s.1.constraints s'.1.constraints hrows,
    findEffectiveForRuntime_eq_of_settled s.1.constraints hsettled hle]

theorem stable_load : versioning.Stable load := by
  intro s s' q hmove hkey
  obtain ⟨hrows, hsettled, hle⟩ := rows_of_key_eq hmove hkey
  rw [load, load, load_eq_of_rows s.1.constraints s'.1.constraints hrows,
    load_eq_of_settled s.1.constraints hsettled hle]

end KeyCompute.Pricing
