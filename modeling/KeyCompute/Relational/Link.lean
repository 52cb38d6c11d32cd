import KeyCompute.Relational.Table

/-!
# Two tables that refer to each other

A row of one table has a **slot** that names the row of another table occupying it, and a row of the
second table **claims** the row it occupies.  `Linked` says that the two columns are partial
inverses of each other.  Then a row is claimed at most once, and the link survives taking a free
slot and giving a held one back, as long as both columns are written together.

`column` reads a table as a partial function of its key, so that a write is a `Function.update`.
-/

namespace KeyCompute.Relational

open Function (update)

section Linked

variable {α β : Type} {slot : α → Option β} {claim : β → Option α} {a : α} {b b' : β}

def Linked (slot : α → Option β) (claim : β → Option α) : Prop :=
  ∀ a b, slot a = some b ↔ claim b = some a

theorem Linked.unique (h : Linked slot claim) (hb : claim b = some a) (hb' : claim b' = some a) :
    b = b' := by
  have hslot : slot a = some b := (h a b).mpr hb
  have hslot' : slot a = some b' := (h a b').mpr hb'
  exact Option.some.inj (hslot.symm.trans hslot')

variable [DecidableEq α] [DecidableEq β]

theorem Linked.acquire (h : Linked slot claim) (free : slot a = none) (idle : claim b = none) :
    Linked (update slot a (some b)) (update claim b (some a)) := by
  intro x y
  by_cases hx : x = a
  · subst hx
    by_cases hy : y = b
    · simp [hy]
    · have hnone : claim y ≠ some x := fun hc => by simp [(h x y).mpr hc] at free
      simp [hy, hnone, Ne.symm hy]
  · by_cases hy : y = b
    · subst hy
      have hnone : slot x ≠ some y := fun hs => by simp [(h x y).mp hs] at idle
      simp [hx, hnone, Ne.symm hx]
    · simp [hx, hy, h x y]

theorem Linked.release (h : Linked slot claim) (held : slot a = some b) :
    Linked (update slot a none) (update claim b none) := by
  have hclaim : claim b = some a := (h a b).mp held
  intro x y
  by_cases hx : x = a
  · subst hx
    by_cases hy : y = b
    · simp [hy]
    · have hne : claim y ≠ some x := fun hc => hy (h.unique hc hclaim)
      simp [hy, hne]
  · by_cases hy : y = b
    · subst hy
      have hne : slot x ≠ some y := by
        intro hs
        rw [(h x y).mp hs, Option.some.injEq] at hclaim
        exact hx hclaim
      simp [hx, hne]
    · simp [hx, hy, h x y]

/-- The slots after the occupant of one has left, if it had one. -/
def vacate (slot : α → Option β) : Option α → α → Option β
  | some a => update slot a none
  | none => slot

/-- **A row leaves**: its slot, if any, is freed, and it claims nothing. -/
theorem Linked.vacate (h : Linked slot claim) (b : β) :
    Linked (vacate slot (claim b)) (update claim b none) := by
  cases hb : claim b with
  | none =>
    have hclaim : update claim b none = claim := by rw [← hb, Function.update_eq_self]
    rw [hclaim]
    exact h
  | some a => exact h.release ((h a b).mpr hb)

end Linked

/-! ## Columns of a keyed table -/

section Column

variable {ρ κ γ : Type} [DecidableEq κ] {key : ρ → κ} {g : ρ → Option γ} {rows : List ρ} {k : κ}

/-- A nullable column, as a function of the key. -/
def column (key : ρ → κ) (g : ρ → Option γ) (rows : List ρ) (k : κ) : Option γ :=
  (lookup key k rows).bind g

variable {f : ρ → ρ}

theorem column_updateKey (hkey : ∀ r, key (f r) = key r) :
    column key g (updateKey key k f rows) =
      update (column key g rows) k ((lookup key k rows).bind fun r => g (f r)) := by
  funext k'
  unfold column
  rw [lookup_updateKey hkey]
  by_cases hk : k' = k
  · subst hk
    cases lookup key k' rows <;> simp
  · simp [hk]

theorem column_updateKey_of_found {r : ρ} (hkey : ∀ r, key (f r) = key r)
    (found : lookup key k rows = some r) :
    column key g (updateKey key k f rows) = update (column key g rows) k (g (f r)) := by
  rw [column_updateKey hkey, found]
  rfl

theorem column_updateKey_of_eq (hkey : ∀ r, key (f r) = key r)
    (hg : ∀ r, lookup key k rows = some r → g (f r) = g r) :
    column key g (updateKey key k f rows) = column key g rows := by
  rw [column_updateKey hkey]
  apply Function.update_eq_iff.mpr
  refine ⟨?_, fun _ _ => rfl⟩
  unfold column
  cases h : lookup key k rows with
  | none => rfl
  | some r => exact hg r h

theorem column_append {r : ρ} (fresh : lookup key (key r) rows = none) :
    column key g (rows ++ [r]) = update (column key g rows) (key r) (g r) := by
  funext k'
  unfold column
  rw [lookup_append, lookup_singleton]
  by_cases hk : k' = key r
  · subst hk
    simp [fresh]
  · simp [hk, Ne.symm hk]

theorem mem_updateKey (unique : (rows.map key).Nodup) {r x : ρ}
    (found : lookup key k rows = some r) :
    x ∈ updateKey key k f rows ↔ x = f r ∨ (x ∈ rows ∧ key x ≠ k) := by
  rw [updateKey, mem_updateWhere]
  constructor
  · rintro ⟨y, hy, rfl⟩
    by_cases hk : key y = k
    · have hyr : lookup key k rows = some y := (lookup_eq_some unique).mpr ⟨hy, hk⟩
      rw [found, Option.some.injEq] at hyr
      exact .inl (by simp [hk, hyr])
    · exact .inr (by simp [hk, hy])
  · rintro (rfl | ⟨hx, hk⟩)
    · exact ⟨r, mem_of_lookup found, by simp [key_of_lookup found]⟩
    · exact ⟨x, hx, by simp [hk]⟩

theorem map_updateKey (hkey : ∀ r, key (f r) = key r) :
    (updateKey key k f rows).map key = rows.map key :=
  map_updateWhere fun r _ _ => hkey r

omit [DecidableEq κ] in
theorem nodup_append_row {r : ρ} (unique : (rows.map key).Nodup)
    (fresh : ∀ x ∈ rows, key x ≠ key r) : ((rows ++ [r]).map key).Nodup := by
  rw [List.map_append, List.nodup_append]
  refine ⟨unique, by simp, ?_⟩
  intro k hk k' hk'
  obtain ⟨x, hx, rfl⟩ := List.mem_map.mp hk
  obtain rfl : k' = key r := by simpa using hk'
  exact fresh x hx

theorem lookup_filter (unique : (rows.map key).Nodup) (p : ρ → Bool) :
    lookup key k (rows.filter p) = (lookup key k rows).filter p := by
  have unique' : ((rows.filter p).map key).Nodup :=
    unique.sublist (List.filter_sublist.map key)
  ext r
  rw [lookup_eq_some unique', List.mem_filter, Option.filter_eq_some_iff, lookup_eq_some unique]
  tauto

theorem column_filter (unique : (rows.map key).Nodup) {p : ρ → Bool}
    (hg : ∀ r ∈ rows, p r = false → g r = none) :
    column key g (rows.filter p) = column key g rows := by
  funext k'
  unfold column
  rw [lookup_filter unique]
  cases h : lookup key k' rows with
  | none => rfl
  | some r =>
    cases hp : p r with
    | true => simp [Option.filter, hp]
    | false => simp [Option.filter, hp, hg r (mem_of_lookup h) hp]

end Column

end KeyCompute.Relational
