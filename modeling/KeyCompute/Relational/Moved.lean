import KeyCompute.Relational.Table

/-!
# Row by row moves of a table

An update leaves a table with the same rows in the same order, each moved as a relation `R`
allows: `List.Forall₂ R rows rows'`.  When `R` keeps a key, the index of the table stays
(`map_of_forall₂`) and a keyed select finds the moved row where it found the old one
(`lookup_of_forall₂`).
-/

namespace KeyCompute.Relational

variable {ρ κ : Type} {R : ρ → ρ → Prop} {rows rows' : List ρ}

/-- An `UPDATE` moves the rows it selects and leaves the others. -/
theorem forall₂_updateWhere {p : ρ → Bool} {f : ρ → ρ} (hrefl : ∀ r, R r r)
    (h : ∀ r ∈ rows, p r → R r (f r)) : List.Forall₂ R rows (updateWhere p f rows) := by
  rw [updateWhere, List.forall₂_map_right_iff, List.forall₂_same]
  intro r hr
  split
  · exact h r hr ‹_›
  · exact hrefl r

variable {key : ρ → κ}

/-- The keys of a moved table are the old ones. -/
theorem map_of_forall₂ (hkey : ∀ a b, R a b → key b = key a) (h : List.Forall₂ R rows rows') :
    rows'.map key = rows.map key := by
  induction h with
  | nil => rfl
  | cons hab _ ih => simp [hkey _ _ hab, ih]

/-- A keyed select finds the moved row where it found the old one. -/
theorem lookup_of_forall₂ [DecidableEq κ] (hkey : ∀ a b, R a b → key b = key a)
    (h : List.Forall₂ R rows rows') (k : κ) :
    Option.Rel R (lookup key k rows) (lookup key k rows') := by
  induction h with
  | nil => exact .none
  | @cons a b _ _ hab _ ih =>
    simp only [lookup, List.find?_cons, hkey a b hab] at ih ⊢
    by_cases hk : key a = k
    · simpa [hk] using hab
    · simpa [hk] using ih

theorem exists_lookup_of_forall₂ [DecidableEq κ] (hkey : ∀ a b, R a b → key b = key a)
    (h : List.Forall₂ R rows rows') {k : κ} {r : ρ} (found : lookup key k rows = some r) :
    ∃ r', lookup key k rows' = some r' ∧ R r r' := by
  have hrel := lookup_of_forall₂ hkey h k
  rw [found] at hrel
  rcases hmoved : lookup key k rows' with _ | r'
  · rw [hmoved] at hrel
    cases hrel
  · rw [hmoved] at hrel
    cases hrel with
    | some hrr' => exact ⟨r', rfl, hrr'⟩

theorem exists_of_mem_forall₂ (h : List.Forall₂ R rows rows') {r' : ρ} (member : r' ∈ rows') :
    ∃ r ∈ rows, R r r' := by
  induction h with
  | nil => cases member
  | @cons a b _ _ hab _ ih =>
    rcases List.mem_cons.mp member with rfl | hmem
    · exact ⟨a, List.mem_cons_self, hab⟩
    · obtain ⟨r, hr, hrel⟩ := ih hmem
      exact ⟨r, List.mem_cons_of_mem _ hr, hrel⟩

/-- Every old row has become some row. -/
theorem exists_moved_of_mem (h : List.Forall₂ R rows rows') {r : ρ} (member : r ∈ rows) :
    ∃ r' ∈ rows', R r r' := exists_of_mem_forall₂ h.flip member

end KeyCompute.Relational
