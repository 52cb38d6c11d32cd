import KeyCompute.Window.Weight

/-!
# Maps whose entries expire

A map from keys to rows is a partial function, and each row has an **expiry**.  `alive now` is
the map as it is seen at a time: the rows that expire later.  A map that drops expired rows early,
late or never is seen in the same way (`alive_alive`), so two such maps are compared by what is
seen of them, and once they agree they agree from then on (`Agree.later`).

A sum over the rows that are seen is at most the sum over all of them (`weight_alive_le`).
-/

namespace KeyCompute.Window

open Function (update)

section Alive

variable {κ ρ τ : Type} [LinearOrder τ] {expiry : ρ → τ} {s t : τ} {m m' : κ → Option ρ}
  {k : κ} {r : ρ}

/-- The rows of a map that expire later than a time. -/
def alive (expiry : ρ → τ) (now : τ) (m : κ → Option ρ) : κ → Option ρ :=
  fun k => (m k).filter fun r => now < expiry r

theorem alive_eq_some : alive expiry t m k = some r ↔ m k = some r ∧ t < expiry r := by
  simp [alive, Option.filter_eq_some_iff]

theorem alive_of_lt (h : m k = some r) (hlt : t < expiry r) : alive expiry t m k = some r :=
  alive_eq_some.mpr ⟨h, hlt⟩

theorem alive_alive (h : s ≤ t) : alive expiry t (alive expiry s m) = alive expiry t m := by
  funext k
  ext r
  show alive expiry t (alive expiry s m) k = some r ↔ alive expiry t m k = some r
  rw [alive_eq_some, alive_eq_some, alive_eq_some]
  constructor
  · exact fun h' => ⟨h'.1.1, h'.2⟩
  · exact fun h' => ⟨⟨h'.1, lt_of_le_of_lt h h'.2⟩, h'.2⟩

@[simp] theorem alive_none : alive expiry t (fun _ : κ => none) = fun _ => none := rfl

theorem alive_update [DecidableEq κ] (v : Option ρ) :
    alive expiry t (update m k v) =
      update (alive expiry t m) k (v.filter fun r => t < expiry r) := by
  funext k'
  by_cases hk : k' = k
  · subst hk
    simp [alive]
  · simp [alive, hk]

/-- Two maps look the same from a time on. -/
def Agree (expiry : ρ → τ) (now : τ) (m m' : κ → Option ρ) : Prop :=
  alive expiry now m = alive expiry now m'

theorem Agree.later (h : Agree expiry s m m') (hst : s ≤ t) : Agree expiry t m m' := by
  unfold Agree at h ⊢
  rw [← alive_alive hst, h, alive_alive hst]

theorem Agree.of_alive : Agree expiry t (alive expiry t m) m := alive_alive le_rfl

theorem Agree.update [DecidableEq κ] (h : Agree expiry t m m') (k : κ) (v : Option ρ) :
    Agree expiry t (update m k v) (update m' k v) := by
  unfold Agree at h ⊢
  rw [alive_update, alive_update, h]

end Alive

/-! ## What is dropped from a sum -/

theorem weight_alive_le {κ ρ τ : Type} [Fintype κ] {w : ρ → ℕ} {m : κ → Option ρ}
    [LinearOrder τ] {expiry : ρ → τ} {now : τ} :
    weight w (alive expiry now m) ≤ weight w m := by
  refine Finset.sum_le_sum fun k _ => ?_
  cases hk : m k with
  | none => simp [alive, hk]
  | some r =>
    unfold alive
    rw [hk, Option.filter_some]
    split <;> simp

end KeyCompute.Window
