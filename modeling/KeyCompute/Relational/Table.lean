import Mathlib

/-!
# Tables as lists of rows

A table is the list of its rows; a unique index is a key function whose image on the rows has no
duplicates.  The lemmas say what a keyed select reads after each write, that a write which keeps the
key keeps the index, and how a filtered sum moves.

A filtered sum is handled through the **contribution** of a row, its value where the filter holds
and zero elsewhere.
-/

namespace KeyCompute.Relational

open List

variable {ρ κ : Type}

/-! ## Statements -/

/-- `UPDATE … SET f WHERE p`. -/
def updateWhere (p : ρ → Bool) (f : ρ → ρ) (rows : List ρ) : List ρ :=
  rows.map fun r => if p r then f r else r

/-- `SELECT … WHERE key = k`, on a unique key. -/
def lookup [DecidableEq κ] (key : ρ → κ) (k : κ) (rows : List ρ) : Option ρ :=
  rows.find? fun r => decide (key r = k)

/-- `UPDATE … SET f WHERE key = k`. -/
def updateKey [DecidableEq κ] (key : ρ → κ) (k : κ) (f : ρ → ρ) (rows : List ρ) : List ρ :=
  updateWhere (fun r => decide (key r = k)) f rows

/-- `INSERT … ON CONFLICT (key) DO NOTHING`. -/
def insertIfAbsent [DecidableEq κ] (key : ρ → κ) (row : ρ) (rows : List ρ) : List ρ :=
  match lookup key (key row) rows with
  | some _ => rows
  | none => rows ++ [row]

/-- `COALESCE(SUM(value) FILTER (WHERE p), 0)`. -/
def totalWhere (p : ρ → Bool) (value : ρ → ℤ) (rows : List ρ) : ℤ :=
  ((rows.filter p).map value).sum

/-- The groups of `GROUP BY key`. -/
def groupKeys [DecidableEq κ] (key : ρ → κ) (rows : List ρ) : List κ :=
  (rows.map key).dedup

def contribution (p : ρ → Bool) (value : ρ → ℤ) (r : ρ) : ℤ := if p r then value r else 0

/-! ## Keyed selects -/

section Lookup

variable [DecidableEq κ] {key : ρ → κ} {k : κ} {rows : List ρ} {r : ρ}

@[simp] theorem lookup_nil : lookup key k ([] : List ρ) = none := rfl

theorem mem_of_lookup (h : lookup key k rows = some r) : r ∈ rows :=
  mem_of_find?_eq_some h

theorem key_of_lookup (h : lookup key k rows = some r) : key r = k := by
  simpa using find?_some h

theorem lookup_eq_none : lookup key k rows = none ↔ ∀ r ∈ rows, key r ≠ k := by
  simp [lookup, find?_eq_none]

theorem lookup_eq_some (unique : (rows.map key).Nodup) :
    lookup key k rows = some r ↔ r ∈ rows ∧ key r = k := by
  constructor
  · exact fun h => ⟨mem_of_lookup h, key_of_lookup h⟩
  · rintro ⟨member, rfl⟩
    cases h : lookup key (key r) rows with
    | none => exact absurd rfl (lookup_eq_none.mp h r member)
    | some r' =>
      rw [inj_on_of_nodup_map unique (mem_of_lookup h) member (key_of_lookup h)]

theorem lookup_isSome_iff : (lookup key k rows).isSome ↔ k ∈ rows.map key := by
  simp [lookup, find?_isSome]

theorem lookup_append (rows' : List ρ) :
    lookup key k (rows ++ rows') = (lookup key k rows).or (lookup key k rows') := by
  simp [lookup, find?_append]

theorem lookup_singleton : lookup key k [r] = if key r = k then some r else none := by
  by_cases h : key r = k <;> simp [lookup, h]

theorem lookup_updateWhere {p : ρ → Bool} {f : ρ → ρ} (hkey : ∀ r, p r → key (f r) = key r) :
    lookup key k (updateWhere p f rows) =
      (lookup key k rows).map fun r => if p r then f r else r := by
  induction rows with
  | nil => rfl
  | cons x rest ih =>
    have hx : key (if p x then f x else x) = key x := by
      split
      · exact hkey x ‹_›
      · rfl
    simp only [lookup, updateWhere, map_cons, find?_cons, hx] at ih ⊢
    by_cases h : key x = k
    · simp [h]
    · simpa [h] using ih

theorem lookup_updateKey {f : ρ → ρ} {k' : κ} (hkey : ∀ r, key (f r) = key r) :
    lookup key k' (updateKey key k f rows) =
      if k' = k then (lookup key k rows).map f else lookup key k' rows := by
  rw [updateKey, lookup_updateWhere fun r _ => hkey r]
  by_cases hk : k' = k
  · subst hk
    cases h : lookup key k' rows with
    | none => simp
    | some r => simp [key_of_lookup h]
  · cases h : lookup key k' rows with
    | none => simp [hk]
    | some r => simp [key_of_lookup h, hk]

end Lookup

/-! ## Indexes under writes -/

section Index

variable {rows : List ρ} {p : ρ → Bool} {f : ρ → ρ} {key : ρ → κ}

theorem map_updateWhere {β : Type} {g : ρ → β} (hg : ∀ r ∈ rows, p r → g (f r) = g r) :
    (updateWhere p f rows).map g = rows.map g := by
  rw [updateWhere, map_map]
  refine map_congr_left fun r member => ?_
  simp only [Function.comp]
  split
  · exact hg r member ‹_›
  · rfl

theorem filterMap_updateWhere {β : Type} {g : ρ → Option β} (hg : ∀ r ∈ rows, p r → g (f r) = g r) :
    (updateWhere p f rows).filterMap g = rows.filterMap g := by
  rw [updateWhere, filterMap_map]
  refine filterMap_congr fun r member => ?_
  simp only [Function.comp]
  split
  · exact hg r member ‹_›
  · rfl

theorem mem_updateWhere {r : ρ} :
    r ∈ updateWhere p f rows ↔ ∃ r₀ ∈ rows, (if p r₀ then f r₀ else r₀) = r := by
  simp [updateWhere]

theorem filter_updateWhere_of_not {p q : ρ → Bool}
    (h : ∀ r ∈ rows, p r → q (f r) = false ∧ q r = false) :
    (updateWhere p f rows).filter q = rows.filter q := by
  induction rows with
  | nil => rfl
  | cons r rest ih =>
    change (_ :: updateWhere p f rest).filter q = _
    rw [filter_cons, filter_cons, ih fun r' hr' => h r' (mem_cons_of_mem _ hr')]
    by_cases hp : p r
    · simp [hp, h r mem_cons_self hp]
    · simp [hp]

theorem updateWhere_of_forall_eq (h : ∀ r ∈ rows, p r → f r = r) : updateWhere p f rows = rows := by
  rw [updateWhere]
  conv_rhs => rw [← map_id rows]
  refine map_congr_left fun r member => ?_
  by_cases hp : p r
  · simp [hp, h r member hp]
  · simp [hp]

theorem updateWhere_of_key [DecidableEq κ] {k : κ} (unique : (rows.map key).Nodup)
    (hkey : ∀ r ∈ rows, p r → key r = k) (f : ρ → ρ) :
    (rows.filter p = [] ∧ updateWhere p f rows = rows) ∨
      ∃ r ∈ rows, p r ∧ rows.filter p = [r] ∧ updateWhere p f rows = updateKey key k f rows := by
  rcases hpicked : rows.filter p with _ | ⟨r, rest⟩
  · left
    refine ⟨rfl, updateWhere_of_forall_eq fun x hx hp => ?_⟩
    exact absurd (mem_filter.mpr ⟨hx, hp⟩) (by simp [hpicked])
  · right
    have hr : r ∈ rows ∧ p r := mem_filter.mp (by simp [hpicked])
    have hiff : ∀ x ∈ rows, p x = decide (key x = k) := by
      intro x hx
      rw [Bool.eq_iff_iff, decide_eq_true_iff]
      refine ⟨hkey x hx, fun hk => ?_⟩
      rw [inj_on_of_nodup_map unique hx hr.1 (hk.trans (hkey r hr.1 hr.2).symm)]
      exact hr.2
    have hrest : rest = [] := by
      have hnodup : (r :: rest).Nodup := hpicked ▸ unique.of_map.filter p
      refine eq_nil_iff_forall_not_mem.mpr fun x hx => ?_
      have hx' : x ∈ rows ∧ p x := mem_filter.mp (by simp [hpicked, hx])
      have hsame : x = r := inj_on_of_nodup_map unique hx'.1 hr.1
        ((hkey x hx'.1 hx'.2).trans (hkey r hr.1 hr.2).symm)
      exact (nodup_cons.mp hnodup).1 (hsame ▸ hx)
    refine ⟨r, hr.1, hr.2, by rw [hrest], ?_⟩
    rw [updateKey, updateWhere, updateWhere]
    exact map_congr_left fun x hx => by rw [hiff x hx]

theorem mem_groupKeys [DecidableEq κ] {k : κ} :
    k ∈ groupKeys key rows ↔ ∃ r ∈ rows, key r = k := by
  simp [groupKeys]

theorem groupKeys_nodup [DecidableEq κ] (key : ρ → κ) (rows : List ρ) :
    (groupKeys key rows).Nodup :=
  nodup_dedup _

theorem mem_insertIfAbsent [DecidableEq κ] {row r : ρ} :
    r ∈ insertIfAbsent key row rows ↔
      r ∈ rows ∨ (lookup key (key row) rows = none ∧ r = row) := by
  unfold insertIfAbsent
  cases h : lookup key (key row) rows <;> simp

theorem lookup_insertIfAbsent [DecidableEq κ] {row : ρ} {k : κ} :
    lookup key k (insertIfAbsent key row rows) =
      if k = key row then some ((lookup key k rows).getD row) else lookup key k rows := by
  by_cases hk : k = key row
  · subst hk
    cases h : lookup key (key row) rows with
    | some r => simp [insertIfAbsent, h]
    | none => simp [insertIfAbsent, h, lookup_append, lookup_singleton]
  · cases h : lookup key (key row) rows with
    | some r => simp [insertIfAbsent, h, hk]
    | none => simp [insertIfAbsent, h, hk, lookup_append, lookup_singleton, Ne.symm hk]

end Index

/-! ## Filtered sums -/

section Totals

variable {p q : ρ → Bool} {value value' : ρ → ℤ} {rows : List ρ}

theorem totalWhere_eq_sum : totalWhere p value rows = (rows.map (contribution p value)).sum := by
  induction rows with
  | nil => rfl
  | cons r rest ih =>
    unfold totalWhere at ih ⊢
    by_cases h : p r <;> simp [h, ih, contribution]

theorem totalWhere_cons (r : ρ) :
    totalWhere p value (r :: rows) = contribution p value r + totalWhere p value rows := by
  simp [totalWhere_eq_sum]

theorem totalWhere_append (rows' : List ρ) :
    totalWhere p value (rows ++ rows') = totalWhere p value rows + totalWhere p value rows' := by
  simp [totalWhere]

theorem totalWhere_singleton (r : ρ) : totalWhere p value [r] = contribution p value r := by
  simp [totalWhere_eq_sum]

theorem totalWhere_congr (h : ∀ r ∈ rows, contribution p value r = contribution q value' r) :
    totalWhere p value rows = totalWhere q value' rows := by
  rw [totalWhere_eq_sum, totalWhere_eq_sum, map_congr_left h]

theorem totalWhere_filter :
    totalWhere p value (rows.filter q) = totalWhere (fun r => p r && q r) value rows := by
  simp [totalWhere, filter_filter]

theorem totalWhere_eq_zero (h : ∀ r ∈ rows, p r → value r = 0) : totalWhere p value rows = 0 := by
  rw [totalWhere_eq_sum]
  refine sum_eq_zero fun x hx => ?_
  obtain ⟨r, member, rfl⟩ := mem_map.mp hx
  unfold contribution
  split
  · exact h r member ‹_›
  · rfl

theorem totalWhere_nonneg (h : ∀ r ∈ rows, p r → 0 ≤ value r) : 0 ≤ totalWhere p value rows := by
  refine sum_nonneg fun x hx => ?_
  obtain ⟨r, member, rfl⟩ := mem_map.mp hx
  exact h r (mem_of_mem_filter member) (mem_filter.mp member).2

theorem totalWhere_le (himp : ∀ r ∈ rows, p r → q r) (hnn : ∀ r ∈ rows, 0 ≤ value r) :
    totalWhere p value rows ≤ totalWhere q value rows := by
  rw [totalWhere_eq_sum, totalWhere_eq_sum]
  refine sum_le_sum fun r member => ?_
  unfold contribution
  by_cases hp : p r
  · simp [hp, himp r member hp]
  · by_cases hq : q r <;> simp [hp, hq, hnn r member]

theorem totalWhere_map_add {g : ρ → ρ}
    (h : ∀ r ∈ rows, contribution p value (g r) + contribution q value' r =
      contribution p value r) :
    totalWhere p value (rows.map g) + totalWhere q value' rows = totalWhere p value rows := by
  simp only [totalWhere_eq_sum, map_map, ← sum_map_add]
  exact congrArg sum (map_congr_left h)

theorem totalWhere_map_eq {g : ρ → ρ}
    (h : ∀ r ∈ rows, contribution p value (g r) = contribution p value r) :
    totalWhere p value (rows.map g) = totalWhere p value rows := by
  rw [totalWhere_eq_sum, totalWhere_eq_sum, map_map]
  exact congrArg sum (map_congr_left h)

theorem totalWhere_add {s : ρ → Bool}
    (h : ∀ r ∈ rows, contribution p value r + contribution q value r = contribution s value r) :
    totalWhere p value rows + totalWhere q value rows = totalWhere s value rows := by
  simp only [totalWhere_eq_sum, ← sum_map_add]
  exact congrArg sum (map_congr_left h)

theorem totalWhere_eq_sum_keys [DecidableEq κ] {key : ρ → κ} {f : κ → ℤ}
    (unique : (rows.map key).Nodup) (h : ∀ r ∈ rows, p r → value r = f (key r)) :
    totalWhere p value rows = ∑ k ∈ ((rows.filter p).map key).toFinset, f k := by
  have hnodup : ((rows.filter p).map key).Nodup :=
    unique.sublist (filter_sublist.map key)
  rw [sum_toFinset f hnodup, map_map, totalWhere]
  refine congrArg sum (map_congr_left fun r member => ?_)
  exact h r (mem_of_mem_filter member) (mem_filter.mp member).2

/-- **Updating the one row behind a unique key** moves a filtered sum by that row's
change of contribution. -/
theorem totalWhere_updateKey [DecidableEq κ] {key : ρ → κ} {k : κ} {f : ρ → ρ} {r : ρ}
    (unique : (rows.map key).Nodup) (found : lookup key k rows = some r) :
    totalWhere p value (updateKey key k f rows) =
      totalWhere p value rows - contribution p value r + contribution p value (f r) := by
  induction rows with
  | nil => simp at found
  | cons x rest ih =>
    simp only [map_cons, nodup_cons] at unique
    by_cases hx : key x = k
    · have hr : x = r := by simpa [lookup, hx] using found
      subst hr
      have hrest : updateKey key k f rest = rest :=
        updateWhere_of_forall_eq fun y member hy => by
          have : key y = key x := by simpa [hx] using hy
          exact absurd (this ▸ mem_map_of_mem member) unique.1
      have : updateKey key k f (x :: rest) = f x :: updateKey key k f rest := by
        simp [updateKey, updateWhere, hx]
      rw [this, hrest, totalWhere_cons, totalWhere_cons]
      ring
    · have hfound : lookup key k rest = some r := by simpa [lookup, hx] using found
      have : updateKey key k f (x :: rest) = x :: updateKey key k f rest := by
        simp [updateKey, updateWhere, hx]
      rw [this, totalWhere_cons, totalWhere_cons, ih unique.2 hfound]
      ring

end Totals

end KeyCompute.Relational
