import Mathlib

/-!
# Claims on credits

A fund receives **credits** `ι`, each with a value, and pays **holders** `ω` the value of the
credits they claim; while a holder is live nobody else may claim them.  `Held` is the safety of such
a fund.  It is kept when credits arrive or holders stop being live (`Held.mono`), and when a new
holder claims whatever no live holder claims (`Held.sweep`).

A fund need not store the claims: the free value is the value of the credits less what the live
holders were paid (`Held.value_unclaimed`).
-/

namespace KeyCompute.Accounting

variable {ι ω : Type}

/-- **The claims of the live holders are disjoint sets of credits.** -/
structure Held (credits : Finset ι) (live : Finset ω) (claim : ω → Finset ι) : Prop where
  subset : ∀ w ∈ live, claim w ⊆ credits
  disjoint : (live : Set ω).PairwiseDisjoint claim

variable {credits credits' : Finset ι} {live live' : Finset ω} {claim claim' : ω → Finset ι}
  {value : ι → ℤ} {w : ω}

namespace Held

theorem empty : Held credits (∅ : Finset ω) claim where
  subset := by simp
  disjoint := by simp

theorem mono (h : Held credits live claim) (hcredits : credits ⊆ credits') (hlive : live' ⊆ live) :
    Held credits' live' claim where
  subset w hw := (h.subset w (hlive hw)).trans hcredits
  disjoint := h.disjoint.subset (Finset.coe_subset.mpr hlive)

theorem congr (h : Held credits live claim) (hclaim : ∀ w ∈ live, claim' w = claim w) :
    Held credits live claim' where
  subset w hw := by
    rw [hclaim w hw]
    exact h.subset w hw
  disjoint := by
    intro w₁ h₁ w₂ h₂ hne
    rw [Function.onFun, hclaim w₁ h₁, hclaim w₂ h₂]
    exact h.disjoint h₁ h₂ hne

end Held

variable [DecidableEq ι]

def unclaimed (credits : Finset ι) (live : Finset ω) (claim : ω → Finset ι) : Finset ι :=
  credits \ live.biUnion claim

theorem unclaimed_subset : unclaimed credits live claim ⊆ credits := Finset.sdiff_subset

theorem not_mem_unclaimed_of_claimed {i : ι} (hw : w ∈ live) (hi : i ∈ claim w) :
    i ∉ unclaimed credits live claim := by
  intro hfree
  exact (Finset.mem_sdiff.mp hfree).2 (Finset.mem_biUnion.mpr ⟨w, hw, hi⟩)

namespace Held

theorem sweep [DecidableEq ω] (h : Held credits live claim) (hw : w ∉ live) :
    Held credits (insert w live)
      (Function.update claim w (unclaimed credits live claim)) := by
  have hothers : ∀ w' ∈ live,
      Function.update claim w (unclaimed credits live claim) w' = claim w' := by
    intro w' hw'
    exact Function.update_of_ne (by rintro rfl; exact hw hw') _ _
  constructor
  · intro w' hw'
    rcases Finset.mem_insert.mp hw' with rfl | hold
    · rw [Function.update_self]
      exact unclaimed_subset
    · rw [hothers w' hold]
      exact h.subset w' hold
  · rw [Finset.coe_insert]
    refine (h.congr hothers).disjoint.insert fun w' hw' _ => ?_
    rw [Function.update_self, hothers w' hw']
    exact Finset.disjoint_left.mpr fun i hfree hi => not_mem_unclaimed_of_claimed hw' hi hfree

theorem sum_claims (h : Held credits live claim) :
    ∑ w ∈ live, ∑ i ∈ claim w, value i = ∑ i ∈ live.biUnion claim, value i :=
  (Finset.sum_biUnion h.disjoint).symm

/-- **What is free is worth the credits less the live claims.** -/
theorem value_unclaimed (h : Held credits live claim) :
    ∑ i ∈ unclaimed credits live claim, value i =
      ∑ i ∈ credits, value i - ∑ w ∈ live, ∑ i ∈ claim w, value i := by
  have hsubset : live.biUnion claim ⊆ credits := Finset.biUnion_subset.mpr h.subset
  rw [h.sum_claims, unclaimed, ← Finset.sum_sdiff hsubset, add_sub_cancel_right]

theorem sum_claims_le (h : Held credits live claim) (hvalue : ∀ i ∈ credits, 0 ≤ value i) :
    ∑ w ∈ live, ∑ i ∈ claim w, value i ≤ ∑ i ∈ credits, value i := by
  have hfree : 0 ≤ ∑ i ∈ unclaimed credits live claim, value i :=
    Finset.sum_nonneg fun i hi => hvalue i (unclaimed_subset hi)
  rw [h.value_unclaimed] at hfree
  exact sub_nonneg.mp hfree

end Held

end KeyCompute.Accounting
