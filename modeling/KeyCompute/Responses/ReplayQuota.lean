import KeyCompute.Responses.IdempotencyClaim

/-!
# The quotas on cached responses

The eviction walks the cached responses of a tenant in the order of its window and drops
every one whose rank or running size is beyond the quotas.  What it keeps is within both
(`retained_bounds`), and the cached responses of the tenant afterwards are among what it kept
(`evict_cached_subset`).
-/

namespace KeyCompute.Responses

open List

open Relational (updateWhere)

variable {maxEntries maxBytes : ℕ}

/-- The responses within the quotas, after `rank` responses of `cumulative` bytes. -/
def retained (maxEntries maxBytes : ℕ) : ℕ → ℕ → List Claim → List Claim
  | _, _, [] => []
  | rank, cumulative, c :: rest =>
    let within := retained maxEntries maxBytes (rank + 1) (cumulative + c.bodyBytes) rest
    if maxEntries < rank + 1 ∨ maxBytes < cumulative + c.bodyBytes then within else c :: within

theorem mem_evicted_or_retained {c : Claim} :
    ∀ (l : List Claim) (rank cumulative : ℕ), c ∈ l →
      c ∈ evicted maxEntries maxBytes rank cumulative l ∨
        c ∈ retained maxEntries maxBytes rank cumulative l := by
  intro l
  induction l with
  | nil => exact fun _ _ h => absurd h not_mem_nil
  | cons x rest ih =>
    intro rank cumulative member
    simp only [evicted, retained]
    rcases mem_cons.mp member with rfl | member
    · split <;> simp
    · have := ih (rank + 1) (cumulative + x.bodyBytes) member
      split <;> simp only [mem_cons] <;> tauto

theorem evicted_subset :
    ∀ (l : List Claim) (rank cumulative : ℕ),
      evicted maxEntries maxBytes rank cumulative l ⊆ l := by
  intro l
  induction l with
  | nil => exact fun _ _ => Subset.refl _
  | cons x rest ih =>
    intro rank cumulative
    have below := ih (rank + 1) (cumulative + x.bodyBytes)
    simp only [evicted]
    split
    · exact cons_subset_cons x below
    · exact subset_cons_of_subset x below

theorem retained_bounds :
    ∀ (l : List Claim) (rank cumulative : ℕ),
      retained maxEntries maxBytes rank cumulative l = [] ∨
        (rank + (retained maxEntries maxBytes rank cumulative l).length ≤ maxEntries ∧
          cumulative + ((retained maxEntries maxBytes rank cumulative l).map Claim.bodyBytes).sum
            ≤ maxBytes) := by
  intro l
  induction l with
  | nil => exact fun _ _ => .inl rfl
  | cons x rest ih =>
    intro rank cumulative
    have below := ih (rank + 1) (cumulative + x.bodyBytes)
    simp only [retained]
    split
    · -- a dropped row still counts, so what follows it has less room
      rcases below with h | ⟨entries, bytes⟩
      · exact .inl h
      · exact .inr ⟨by omega, by omega⟩
    · rename_i fits
      refine .inr ?_
      rcases below with h | ⟨entries, bytes⟩
      · rw [h]
        simp only [length_cons, length_nil, map_cons, map_nil,
          sum_cons, sum_nil]
        omega
      · simp only [length_cons, map_cons, sum_cons]
        omega

def ClaimStore.cached (s : ClaimStore) (tenantId : Uuid) : List Claim :=
  s.claims.filter fun c => c.tenantId = tenantId ∧ c.executionState = .completed

theorem ClaimStore.mem_cached {s : ClaimStore} {tenantId : Uuid} {c : Claim} :
    c ∈ s.cached tenantId ↔
      c ∈ s.claims ∧ c.tenantId = tenantId ∧ c.executionState = .completed := by
  simp [ClaimStore.cached]

theorem ClaimStore.mem_ranked {s : ClaimStore} {tenantId : Uuid} {bindingId : String}
    {c : Claim} : c ∈ s.ranked tenantId bindingId ↔ c ∈ s.cached tenantId :=
  mem_mergeSort

theorem evict_cached_subset (s : ClaimStore) (tenantId : Uuid) (bindingId : String) :
    (s.evict tenantId bindingId maxEntries maxBytes).cached tenantId ⊆
      retained maxEntries maxBytes 0 0 (s.ranked tenantId bindingId) := by
  intro c' member
  obtain ⟨stored, tenant, completed⟩ := ClaimStore.mem_cached.mp member
  obtain ⟨c, hc, rfl⟩ := Relational.mem_updateWhere.mp stored
  split at completed
  · -- an evicted row is expired, so it is not among the cached ones
    exact absurd completed (by simp [Claim.expire])
  · rename_i kept
    rw [if_neg kept] at tenant ⊢
    have ranked : c ∈ s.ranked tenantId bindingId :=
      ClaimStore.mem_ranked.mpr (ClaimStore.mem_cached.mpr ⟨hc, tenant, completed⟩)
    rcases mem_evicted_or_retained _ 0 0 ranked with victim | h
    · refine absurd ?_ kept
      exact decide_eq_true ⟨tenant, mem_map_of_mem victim⟩
    · exact h

/-- **The eviction enforces both quotas**: at most `maxEntries` responses of at most `maxBytes`
together stay cached for the tenant. -/
theorem evict_within (s : ClaimStore) (tenantId : Uuid) (bindingId : String)
    (unique : ((s.evict tenantId bindingId maxEntries maxBytes).claims.map Claim.key).Nodup) :
    ((s.evict tenantId bindingId maxEntries maxBytes).cached tenantId).length ≤ maxEntries ∧
      (((s.evict tenantId bindingId maxEntries maxBytes).cached tenantId).map
        Claim.bodyBytes).sum ≤ maxBytes := by
  set rows := (s.evict tenantId bindingId maxEntries maxBytes).cached tenantId
  have nodup : rows.Nodup := (Nodup.of_map _ unique).filter _
  obtain ⟨l, perm, sub⟩ :=
    subperm_of_subset nodup (evict_cached_subset s tenantId bindingId)
  have entries : rows.length ≤ _ := perm.length_eq ▸ sub.length_le
  have bytes : (rows.map Claim.bodyBytes).sum ≤ _ :=
    (perm.map Claim.bodyBytes).sum_eq ▸ (sub.map Claim.bodyBytes).sum_le_sum (by simp)
  have kept : retained maxEntries maxBytes 0 0 (s.ranked tenantId bindingId) = [] ∨ _ :=
    retained_bounds _ 0 0
  rcases kept with h | ⟨hentries, hbytes⟩
  · simp only [h, length_nil, map_nil, sum_nil] at entries bytes
    omega
  · omega

end KeyCompute.Responses
