import Mathlib

/-!
# Ordered selects

`orderBy` is `ORDER BY` with a key in a linear order.  A query that takes one row of the
ordered result is described without the order: the first row has a least key
(`head?_orderBy`), and a search for a row that is unique finds the same one in any order
(`find?_orderBy`).
-/

namespace KeyCompute.Relational

open List

variable {ρ κ : Type} [LinearOrder κ] {key : ρ → κ} {rows : List ρ} {r : ρ}

/-- `ORDER BY key`. -/
def orderBy (key : ρ → κ) (rows : List ρ) : List ρ :=
  rows.insertionSort fun a b => key a ≤ key b

theorem perm_orderBy (key : ρ → κ) (rows : List ρ) : (orderBy key rows).Perm rows :=
  perm_insertionSort _ rows

@[simp] theorem mem_orderBy : r ∈ orderBy key rows ↔ r ∈ rows := (perm_orderBy key rows).mem_iff

theorem pairwise_orderBy (key : ρ → κ) (rows : List ρ) :
    (orderBy key rows).Pairwise fun a b => key a ≤ key b := by
  have : Std.Total (fun a b : ρ => key a ≤ key b) := ⟨fun a b => le_total (key a) (key b)⟩
  have : IsTrans ρ (fun a b => key a ≤ key b) := ⟨fun a b c => le_trans⟩
  exact pairwise_insertionSort _ rows

/-- `LIMIT 1`: the row with a least key. -/
theorem head?_orderBy (h : (orderBy key rows).head? = some r) :
    r ∈ rows ∧ ∀ r' ∈ rows, key r ≤ key r' := by
  obtain ⟨rest, heq⟩ := head?_eq_some_iff.mp h
  have hmem : r ∈ rows := mem_orderBy.mp (heq ▸ mem_cons_self)
  refine ⟨hmem, fun r' hr' => ?_⟩
  have hpair := pairwise_orderBy key rows
  rw [heq, pairwise_cons] at hpair
  have hr' : r' ∈ orderBy key rows := mem_orderBy.mpr hr'
  obtain rfl | hr' := mem_cons.mp (heq ▸ hr')
  · exact le_refl _
  · exact hpair.1 r' hr'

theorem head?_orderBy_eq_none : (orderBy key rows).head? = none ↔ rows = [] := by
  rw [head?_eq_none_iff, ← length_eq_zero_iff, (perm_orderBy key rows).length_eq,
    length_eq_zero_iff]

omit [LinearOrder κ] in
theorem find?_congr {p p' : ρ → Bool} (h : ∀ r ∈ rows, p r = p' r) :
    rows.find? p = rows.find? p' := by
  rw [← head?_filter, ← head?_filter, filter_congr h]

omit [LinearOrder κ] in
theorem find?_eq_of_perm {p : ρ → Bool} {rows' : List ρ} (hperm : rows'.Perm rows)
    (hunique : ∀ a ∈ rows, ∀ b ∈ rows, p a → p b → a = b) : rows'.find? p = rows.find? p := by
  cases h : rows'.find? p with
  | none =>
    rw [find?_eq_none] at h
    exact (find?_eq_none.mpr fun a ha => h a (hperm.mem_iff.mpr ha)).symm
  | some a =>
    have ha : a ∈ rows := hperm.mem_iff.mp (mem_of_find?_eq_some h)
    cases h' : rows.find? p with
    | none => exact absurd (find?_some h) (find?_eq_none.mp h' a ha)
    | some b =>
      rw [hunique a ha b (mem_of_find?_eq_some h') (find?_some h)
        (find?_some h')]

theorem find?_orderBy {p : ρ → Bool} (hunique : ∀ a ∈ rows, ∀ b ∈ rows, p a → p b → a = b) :
    (orderBy key rows).find? p = rows.find? p :=
  find?_eq_of_perm (perm_orderBy key rows) hunique

end KeyCompute.Relational
