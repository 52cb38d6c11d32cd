import KeyCompute.Relational.Table

/-!
# Sums over a map

A map from finitely many keys to rows is a partial function.  `weight` sums a column over the rows
of a map: each key counts once, whatever data structure holds the rows.  `weight_update` says what
a write does to such a sum.

`count` counts the rows with a property.  Counting them by a further column and adding up gives the
same (`sum_count`).
-/

namespace KeyCompute.Window

open Finset

open Function (update)
open Relational (lookup)

variable {κ ρ : Type} [Fintype κ] {w : ρ → ℕ} {m : κ → Option ρ}

/-- The sum of a column over the rows of a map. -/
def weight (w : ρ → ℕ) (m : κ → Option ρ) : ℕ := ∑ k, (m k).elim 0 w

@[simp] theorem weight_none : weight w (fun _ : κ => none) = 0 := by
  simp [weight]

theorem le_weight (k : κ) : (m k).elim 0 w ≤ weight w m :=
  single_le_sum (f := fun k => (m k).elim 0 w) (fun _ _ => Nat.zero_le _)
    (mem_univ k)

/-- The number of rows of a map with a property. -/
def count (p : ρ → Bool) (m : κ → Option ρ) : ℕ := weight (fun r => (p r).toNat) m

variable [DecidableEq κ]

/-- A write replaces the part of its key in the sum. -/
theorem weight_update (k : κ) (v : Option ρ) :
    weight w (update m k v) + (m k).elim 0 w = weight w m + v.elim 0 w := by
  have hrest : ∑ k' ∈ univ.erase k, (update m k v k').elim 0 w =
      ∑ k' ∈ univ.erase k, (m k').elim 0 w := by
    refine sum_congr rfl fun k' hk' => ?_
    rw [Function.update_of_ne (ne_of_mem_erase hk')]
  have hnew := add_sum_erase univ (fun k' => (update m k v k').elim 0 w)
    (mem_univ k)
  have hold := add_sum_erase univ (fun k' => (m k').elim 0 w) (mem_univ k)
  simp only [Function.update_self] at hnew
  rw [hrest] at hnew
  unfold weight
  omega

/-- The sum over a table with unique keys is the sum over the map it is. -/
theorem weight_lookup {α : Type} {key : α → κ} {rows : List α} {f : α → ρ}
    (unique : (rows.map key).Nodup) :
    weight w (fun k => (lookup key k rows).map f) = (rows.map fun row => w (f row)).sum := by
  induction rows with
  | nil => simp [weight]
  | cons row rest ih =>
    obtain ⟨hfresh, unique⟩ := List.nodup_cons.mp unique
    have hnone : lookup key (key row) rest = none := by
      rw [Relational.lookup_eq_none]
      exact fun other hother hsame => hfresh (List.mem_map.mpr ⟨other, hother, hsame⟩)
    have hmap : (fun k => (lookup key k (row :: rest)).map f) =
        update (fun k => (lookup key k rest).map f) (key row) (some (f row)) := by
      funext k
      by_cases hk : k = key row
      · subst hk
        simp [lookup]
      · simp [lookup, hk, Ne.symm hk]
    have hupdate := weight_update (w := w) (m := fun k => (lookup key k rest).map f) (key row)
      (some (f row))
    rw [hmap, List.map_cons, List.sum_cons, ← ih unique]
    simp only [hnone, Option.map_none, Option.elim_none, Option.elim_some] at hupdate
    omega

/-! ## Counting rows -/

section Count

variable {p : ρ → Bool}

omit [DecidableEq κ] in
theorem count_eq_sum : count p m = ∑ k, ((m k).any p).toNat := by
  refine sum_congr rfl fun k _ => ?_
  cases m k <;> rfl

omit [DecidableEq κ] in
theorem count_congr {m' : κ → Option ρ} (h : ∀ k, (m' k).any p = (m k).any p) :
    count p m' = count p m := by
  rw [count_eq_sum, count_eq_sum]
  exact sum_congr rfl fun k _ => by rw [h]

theorem count_update (k : κ) (v : Option ρ) :
    count p (update m k v) + ((m k).any p).toNat = count p m + (v.any p).toNat := by
  have hupdate := weight_update (w := fun r => (p r).toNat) (m := m) k v
  have hany : ∀ o : Option ρ, o.elim 0 (fun r => (p r).toNat) = (o.any p).toNat := by
    intro o
    cases o <;> rfl
  rwa [hany, hany] at hupdate

omit [DecidableEq κ] in
theorem count_pos {k : κ} {r : ρ} (hk : m k = some r) (hp : p r = true) : 0 < count p m := by
  have hle := le_weight (w := fun r => (p r).toNat) (m := m) k
  rw [hk, Option.elim_some, hp] at hle
  exact hle

omit [DecidableEq κ] in
theorem sum_count {γ : Type} [Fintype γ] [DecidableEq γ] (column : ρ → γ) :
    ∑ g, count (fun r => p r && decide (column r = g)) m = count p m := by
  unfold count weight
  rw [sum_comm]
  refine sum_congr rfl fun k _ => ?_
  cases m k with
  | none => simp
  | some r =>
    simp only [Option.elim_some]
    cases p r with
    | false => simp
    | true =>
      have hnat : ∀ g, (true && decide (column r = g)).toNat = if column r = g then 1 else 0 := by
        intro g
        by_cases hg : column r = g <;> simp [hg]
      simp only [hnat]
      simp

/-- A list of exactly the keys whose rows have the property is as long as the count. -/
theorem count_eq_length {keys : List κ} (unique : keys.Nodup)
    (h : ∀ k, k ∈ keys ↔ (m k).any p = true) : count p m = keys.length := by
  rw [← List.toFinset_card_of_nodup unique, card_eq_sum_ones, count, weight,
    ← sum_filter_add_sum_filter_not univ (fun k => k ∈ keys.toFinset)]
  have hin : univ.filter (fun k => k ∈ keys.toFinset) = keys.toFinset := by
    ext k
    simp
  rw [hin]
  have hone : ∀ k ∈ keys.toFinset, (m k).elim 0 (fun r => (p r).toNat) = 1 := by
    intro k hk
    rw [List.mem_toFinset, h] at hk
    cases hm : m k with
    | none => simp [hm] at hk
    | some r =>
      rw [hm] at hk
      simpa using hk
  have hzero : ∀ k ∈ univ.filter (fun k => ¬ k ∈ keys.toFinset),
      (m k).elim 0 (fun r => (p r).toNat) = 0 := by
    intro k hk
    rw [mem_filter, List.mem_toFinset, h] at hk
    cases hm : m k with
    | none => rfl
    | some r =>
      rw [hm] at hk
      simpa using hk.2
  rw [sum_congr rfl hone, sum_eq_zero hzero, Nat.add_zero]

end Count

end KeyCompute.Window
