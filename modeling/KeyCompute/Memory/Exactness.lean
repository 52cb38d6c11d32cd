import KeyCompute.Memory.Budget

/-!
# The memory budget is exact

`Exact` says where every byte of `used` is counted, in every state between two steps.  A claim is
counted with its size, except between the two halves of `shrink_to`, when it is counted with its new
size already, and after `Claim::drop`, when it is not counted any more.

`shrink_to` reads the strong count before it takes a lock.  The count cannot rise in the meantime:
every permit of the claim is the one that is borrowed exclusively.
-/

namespace KeyCompute.Memory

open Budget Phase Function Finset

/-- An operation with both locks changes the claim in its direction. -/
def Phase.Sized (claims : ℕ → Claim) : Phase → Prop
  | .grow .both use => (claims use.claim).bytes < use.bytes
  | .shrink .both use => use.bytes < (claims use.claim).bytes
  | _ => True

structure Exact (sys : Budget) : Prop where
  healthy : sys.failed = false
  used : sys.status.used = ∑ c ∈ range sys.claimCount, (sys.claims c).counted
  limit : sys.status.used ≤ sys.status.limit
  peak : sys.status.used ≤ sys.status.peak
  freshOps : ∀ i, sys.opCount ≤ i → sys.ops i = .finished true
  freshPermits : ∀ p, sys.permitCount ≤ p → sys.permits p = none
  valid : ∀ p c, sys.permits p = some c → c < sys.claimCount
  uses : ∀ i use, (sys.ops i).use? = some use → sys.permits use.permit = some use.claim
  unique : ∀ i stage use, sys.ops i = .shrink stage use → stage ≠ .counting →
    ∀ p, sys.permits p = some use.claim → p = use.permit
  claimMutex : ∀ i j c, (sys.ops i).holdsClaim = some c → (sys.ops j).holdsClaim = some c → i = j
  budgetMutex : ∀ i j, (sys.ops i).holdsBudget = true → (sys.ops j).holdsBudget = true → i = j
  sized : ∀ i, (sys.ops i).Sized sys.claims
  dropped : ∀ i c, (sys.ops i).drops = some c →
    c < sys.claimCount ∧ (∀ p, sys.permits p ≠ some c) ∧
      (sys.claims c).counted = (sys.claims c).bytes ∧
      ∀ j, (sys.ops j).drops = some c → j = i
  updated : ∀ i use, sys.ops i = .shrink .updated use →
    (sys.claims use.claim).counted = use.bytes
  settled : ∀ p c, sys.permits p = some c → (sys.claims c).counted = (sys.claims c).bytes ∨
    ∃ i use, sys.ops i = .shrink .updated use ∧ use.claim = c
  released : ∀ c < sys.claimCount, (sys.claims c).counted = 0 ∨ (∃ p, sys.permits p = some c) ∨
    ∃ i, (sys.ops i).drops = some c

theorem exact_new {limit : ℕ} {sys : Budget} (h : Budget.new limit = .ok sys) : Exact sys := by
  unfold Budget.new at h
  split at h
  · cases h
  · obtain rfl := Except.ok.inj h
    exact ⟨rfl, rfl, Nat.zero_le _, Nat.le_refl _, fun _ _ => rfl, fun _ _ => rfl,
      fun _ _ h => (nomatch h), fun _ _ h => (nomatch h), fun _ _ _ h => (nomatch h),
      fun _ _ _ h => (nomatch h), fun _ _ h => (nomatch h), fun _ => trivial,
      fun _ _ h => (nomatch h), fun _ _ h => (nomatch h), fun _ _ h => (nomatch h),
      fun _ h => (nomatch h)⟩

section Steps

variable {sys : Budget} {i c : ℕ} {phase : Phase} {use : Use}

theorem someOp_eq_false {p : Phase → Bool} (h : Exact sys) (hp : p (.finished true) = false) :
    sys.someOp p = false ↔ ∀ i, p (sys.ops i) = false := by
  rw [someOp, List.any_eq_false]
  constructor
  · intro hall i
    rcases Nat.lt_or_ge i sys.opCount with hi | hi
    · simpa using hall i (List.mem_range.mpr hi)
    · rw [h.freshOps i hi, hp]
  · exact fun hall i _ => by simp [hall i]

theorem strongCount_eq_zero (fresh : ∀ p, sys.permitCount ≤ p → sys.permits p = none) :
    sys.strongCount c = 0 ↔ ∀ p, sys.permits p ≠ some c := by
  rw [strongCount, List.length_eq_zero_iff, List.filter_eq_nil_iff]
  constructor
  · grind [Nat.le_of_not_lt, List.mem_range.mpr]
  · exact fun hall p _ => by simpa using hall p

theorem eq_of_strongCount {p q : ℕ} (h : Exact sys) (hone : sys.strongCount c = 1)
    (hp : sys.permits p = some c) (hq : sys.permits q = some c) : p = q := by
  have hmem : ∀ p, sys.permits p = some c →
      p ∈ (List.range sys.permitCount).filter fun p => decide (sys.permits p = some c) := by
    grind [List.mem_filter.mpr, List.mem_range.mpr, Nat.le_of_not_lt, Exact]
  obtain ⟨only, honly⟩ := List.length_eq_one_iff.mp hone
  have hp' := hmem p hp
  have hq' := hmem q hq
  rw [honly, List.mem_singleton] at hp' hq'
  rw [hp', hq']

theorem use_of_holdsClaim (h : phase.holdsClaim = some c) :
    ∃ use, phase.use? = some use ∧ use.claim = c := by
  cases phase with
  | grow stage use => cases stage <;> first | exact ⟨use, rfl, Option.some.inj h⟩ | cases h
  | shrink stage use => cases stage <;> first | exact ⟨use, rfl, Option.some.inj h⟩ | cases h
  | _ => cases h

theorem Phase.Sized.update {claims : ℕ → Claim} (h : phase.Sized claims)
    (hlock : phase.holdsClaim ≠ some c) (value : Claim) :
    phase.Sized (Function.update claims c value) := by
  have hother : ∀ use : Use, some use.claim ≠ some c →
      Function.update claims c value use.claim = claims use.claim :=
    fun use hne => Function.update_of_ne (fun heq => hne (congrArg some heq)) _ _
  cases phase with
  | grow stage use | shrink stage use =>
    cases stage with
    | both =>
      simp only [Sized, hother use hlock]
      exact h
    | _ => trivial
  | _ => trivial

namespace Exact

theorem lt_opCount (h : Exact sys) (hphase : sys.ops i ≠ .finished true) : i < sys.opCount := by
  by_contra hge
  exact hphase (h.freshOps i (Nat.le_of_not_lt hge))

/-- What at most one operation has stays so, if an operation gets it only while no other has it. -/
theorem eq_of_update {p : Phase → Prop} (old : ∀ j k, p (sys.ops j) → p (sys.ops k) → j = k)
    (new : p phase → ∀ j ≠ i, ¬p (sys.ops j)) {j k : ℕ} (hj : p (update sys.ops i phase j))
    (hk : p (update sys.ops i phase k)) : j = k := by
  by_contra hne
  rcases eq_or_ne j i with rfl | hji
  · rw [update_self] at hj
    rw [update_of_ne (Ne.symm hne)] at hk
    exact new hj k (Ne.symm hne) hk
  · rw [update_of_ne hji] at hj
    rcases eq_or_ne k i with rfl | hki
    · rw [update_self] at hk
      exact new hk j hji hj
    · rw [update_of_ne hki] at hk
      exact hne (old j k hj hk)

/-- **An operation goes on** and changes nothing but its phase.  What it drops, and whether it is
between the halves of a `shrink_to`, stays. -/
theorem goes (h : Exact sys) {opCount' : ℕ} (hcount : i < opCount')
    (hgrows : sys.opCount ≤ opCount') (drops : phase.drops = (sys.ops i).drops)
    (updated : ∀ use, phase = .shrink .updated use ↔ sys.ops i = .shrink .updated use)
    (uses : ∀ use, phase.use? = some use → sys.permits use.permit = some use.claim)
    (unique : ∀ stage use, phase = .shrink stage use → stage ≠ .counting →
      ∀ p, sys.permits p = some use.claim → p = use.permit)
    (claimMutex : ∀ c, phase.holdsClaim = some c → ∀ j ≠ i, (sys.ops j).holdsClaim ≠ some c)
    (budgetMutex : phase.holdsBudget = true → ∀ j ≠ i, (sys.ops j).holdsBudget = false)
    (sized : phase.Sized sys.claims) :
    Exact { sys with ops := update sys.ops i phase, opCount := opCount' } := by
  have hdrops : ∀ j, (update sys.ops i phase j).drops = (sys.ops j).drops :=
    (forall_update_iff sys.ops fun j phase => phase.drops = (sys.ops j).drops).mpr
      ⟨drops, fun _ _ => rfl⟩
  have hupdated : ∀ j use, update sys.ops i phase j = .shrink .updated use ↔
      sys.ops j = .shrink .updated use :=
    (forall_update_iff sys.ops fun j phase => ∀ use, phase = .shrink .updated use ↔
      sys.ops j = .shrink .updated use).mpr ⟨updated, fun _ _ _ => Iff.rfl⟩
  constructor
  case freshOps =>
    intro j hj
    have hne : j ≠ i := ne_of_gt (hcount.trans_le hj)
    exact (update_of_ne hne _ _).trans (h.freshOps j (hgrows.trans hj))
  case uses =>
    exact (forall_update_iff sys.ops fun _ phase => ∀ use, phase.use? = some use →
      sys.permits use.permit = some use.claim).mpr ⟨uses, fun j _ => h.uses j⟩
  case unique =>
    intro j stage use hj
    rcases eq_or_ne j i with rfl | hne
    · exact unique stage use ((update_self ..).symm.trans hj)
    · exact h.unique j stage use ((update_of_ne hne ..).symm.trans hj)
  case claimMutex =>
    exact fun j k c => eq_of_update (p := fun phase => phase.holdsClaim = some c)
      (fun j k => h.claimMutex j k c) (claimMutex c)
  case budgetMutex =>
    refine fun j k => eq_of_update (p := fun phase => phase.holdsBudget = true) h.budgetMutex ?_
    exact fun hnew j hj => Bool.eq_false_iff.mp (budgetMutex hnew j hj)
  case sized =>
    exact (forall_update_iff sys.ops fun _ phase => phase.Sized sys.claims).mpr
      ⟨sized, fun j _ => h.sized j⟩
  case dropped =>
    intro j c hj
    obtain ⟨hc, hnone, hcounted, honly⟩ := h.dropped j c ((hdrops j).symm.trans hj)
    exact ⟨hc, hnone, hcounted, fun k hk => honly k ((hdrops k).symm.trans hk)⟩
  case updated => exact fun j use hj => h.updated j use ((hupdated j use).mp hj)
  case settled =>
    refine fun p c hp => (h.settled p c hp).imp_right ?_
    rintro ⟨j, use, hj, hc⟩
    exact ⟨j, use, (hupdated j use).mpr hj, hc⟩
  case released =>
    refine fun c hc => (h.released c hc).imp_right (.imp_right ?_)
    rintro ⟨j, hj⟩
    exact ⟨j, (hdrops j).trans hj⟩
  exacts [h.healthy, h.used, h.limit, h.peak, h.freshPermits, h.valid]

theorem counted_of_claim (h : Exact sys) (huse : (sys.ops i).use? = some use)
    (hholds : (sys.ops i).holdsClaim = some use.claim)
    (hphase : ∀ use', sys.ops i ≠ .shrink .updated use') :
    (sys.claims use.claim).counted = (sys.claims use.claim).bytes := by
  rcases h.settled use.permit use.claim (h.uses i use huse) with heq | ⟨j, use', hj, hsame⟩
  · exact heq
  · have hij := h.claimMutex i j _ hholds (by rw [hj, ← hsame]; rfl)
    exact absurd (hij ▸ hj) (hphase use')

theorem counted_le_used (h : Exact sys) (hc : c < sys.claimCount) :
    (sys.claims c).counted ≤ sys.status.used := by
  rw [h.used]
  exact single_le_sum (f := fun c => (sys.claims c).counted) (fun _ _ => Nat.zero_le _)
    (mem_range.mpr hc)

theorem used_update (h : Exact sys) (hc : c < sys.claimCount) (value : Claim) :
    ∑ c' ∈ range sys.claimCount, (update sys.claims c value c').counted +
        (sys.claims c).counted = sys.status.used + value.counted := by
  have hmem := mem_range.mpr hc
  have hnew := add_sum_erase _ (fun c' => (update sys.claims c value c').counted)
    hmem
  have hold := add_sum_erase _ (fun c' => (sys.claims c').counted) hmem
  have hrest : ∑ c' ∈ (range sys.claimCount).erase c,
      (update sys.claims c value c').counted =
      ∑ c' ∈ (range sys.claimCount).erase c, (sys.claims c').counted :=
    sum_congr rfl fun c' hc' => by
      rw [update_of_ne (ne_of_mem_erase hc')]
  rw [hrest] at hnew
  simp only [update_self] at hnew
  have hused := h.used
  omega

/-- **An operation writes a claim** whose lock no other operation holds and which no other one
drops. -/
theorem wrote (h : Exact sys) (hi : i < sys.opCount) (hc : c < sys.claimCount)
    (status' : MemoryStatus) (value : Claim)
    (lock : ∀ j ≠ i, (sys.ops j).holdsClaim ≠ some c)
    (drop : ∀ j ≠ i, (sys.ops j).drops ≠ some c)
    (used : status'.used + (sys.claims c).counted = sys.status.used + value.counted)
    (limit : status'.used ≤ status'.limit) (peak : status'.used ≤ status'.peak)
    (oldDrops : ∀ c', (sys.ops i).drops = some c' → c' = c)
    (oldUpdated : ∀ use, sys.ops i = .shrink .updated use → use.claim = c)
    (uses : ∀ use, phase.use? = some use → sys.permits use.permit = some use.claim)
    (unique : ∀ stage use, phase = .shrink stage use → stage ≠ .counting →
      ∀ p, sys.permits p = some use.claim → p = use.permit)
    (claimMutex : ∀ c, phase.holdsClaim = some c → ∀ j ≠ i, (sys.ops j).holdsClaim ≠ some c)
    (newBudget : phase.holdsBudget = false) (newDrops : phase.drops = none)
    (newSized : phase.Sized (update sys.claims c value))
    (newUpdated : ∀ use, phase = .shrink .updated use →
      use.claim = c ∧ value.counted = use.bytes)
    (settled : ∀ p, sys.permits p = some c → (∀ use, phase ≠ .shrink .updated use) →
      value.counted = value.bytes)
    (released : (∀ p, sys.permits p ≠ some c) → value.counted = 0) :
    Exact (({ sys with status := status' }.setClaim c value).goes i phase) := by
  have hsum := h.used_update hc value
  have hsized : ∀ j ≠ i, (sys.ops j).Sized (update sys.claims c value) :=
    fun j hj => (h.sized j).update (lock j hj) value
  have hlock : ∀ j use, sys.ops j = .shrink .updated use →
      (sys.ops j).holdsClaim = some use.claim := fun j use hj => by rw [hj]; rfl
  have hother : ∀ j ≠ i, update sys.ops i phase j = sys.ops j :=
    fun j hj => update_of_ne hj _ _
  unfold setClaim Budget.goes
  constructor
  case settled =>
    intro p c' hp
    by_cases hc' : c' = c
    · by_cases hphase : ∃ use, phase = .shrink .updated use
      · obtain ⟨use, huse⟩ := hphase
        exact .inr ⟨i, use, by grind⟩
      · grind
    · grind [Exact]
  case released => grind [Exact]
  all_goals grind [Exact, update_apply]

theorem claim_alone (h : Exact sys) (hc : (sys.ops i).holdsClaim = some c) :
    ∀ j ≠ i, (sys.ops j).holdsClaim ≠ some c :=
  fun j hj hholds => hj (h.claimMutex j i c hholds hc)

theorem not_dropped {p : ℕ} (h : Exact sys) (hp : sys.permits p = some c) (j : ℕ) :
    (sys.ops j).drops ≠ some c :=
  fun hdrops => (h.dropped j c hdrops).2.1 p hp

theorem budget_free (h : Exact sys) (hfree : ¬sys.budgetLocked = true) (j : ℕ) :
    (sys.ops j).holdsBudget = false :=
  (someOp_eq_false h rfl).mp (Bool.eq_false_of_not_eq_true hfree) j

theorem claim_free (h : Exact sys) (hfree : ¬sys.claimLocked c = true) (j : ℕ) :
    (sys.ops j).holdsClaim ≠ some c :=
  of_decide_eq_false ((someOp_eq_false h rfl).mp (Bool.eq_false_of_not_eq_true hfree) j)

theorem ended (h : Exact sys) (hi : i < sys.opCount) (drops : (sys.ops i).drops = none)
    (old : ∀ use, sys.ops i ≠ .shrink .updated use) (ok : Bool) :
    Exact (sys.goes i (.finished ok)) :=
  h.goes hi (Nat.le_refl _) drops.symm (fun use => iff_of_false (fun h => (nomatch h)) (old use))
    (fun _ h => (nomatch h)) (fun _ _ h => (nomatch h)) (fun _ h => (nomatch h))
    (fun h => (nomatch h)) trivial

theorem reserved (h : Exact sys) {bytes : ℕ} (hphase : sys.ops i = .reserveLocked bytes)
    (hfits : bytes ≤ sys.status.limit - sys.status.used) :
    Exact (((sys.charge bytes).addClaim bytes).goes i (.finished true)) := by
  have hended := h.ended (h.lt_opCount (i := i) (by simp [hphase])) (by rw [hphase]; rfl)
    (by simp [hphase]) true
  have hlimit := h.limit
  -- the new claim has no operation yet
  have hclaim : ∀ j, ((sys.goes i (.finished true)).ops j).holdsClaim ≠ some sys.claimCount := by
    intro j hj
    obtain ⟨use, huse, heq⟩ := use_of_holdsClaim hj
    exact absurd heq (Nat.ne_of_lt (h.valid _ _ (hended.uses j use huse)))
  have hsum : ∑ c ∈ range sys.claimCount,
      (update sys.claims sys.claimCount ⟨bytes, bytes⟩ c).counted = sys.status.used := by
    rw [h.used]
    refine sum_congr rfl fun c hc => ?_
    rw [update_of_ne (Nat.ne_of_lt (mem_range.mp hc))]
  have hsized := fun j => (hended.sized j).update (hclaim j) ⟨bytes, bytes⟩
  have hlive : ∀ p c, sys.permits p = some c →
      update sys.permits sys.permitCount (some sys.claimCount) p = some c := by
    grind [Exact, update_apply]
  have hshrinks : ∀ {j stage use}, (sys.goes i (.finished true)).ops j = .shrink stage use →
      use.claim < sys.claimCount := fun hj => h.valid _ _ (hended.uses _ _ (by rw [hj]; rfl))
  simp only [Budget.goes, addClaim, charge, setClaim] at hended hsized hshrinks ⊢
  constructor
  case used => simp only [sum_range_succ, update_self, hsum]
  case released =>
    intro c hc
    by_cases hne : c = sys.claimCount
    · exact .inr (.inl ⟨sys.permitCount, hne ▸ update_self ..⟩)
    · grind [update_apply, Exact]
  case settled => grind [update_apply, Exact]
  all_goals grind [Exact, update_apply]

theorem grew (h : Exact sys) (hphase : sys.ops i = .grow .both use)
    (hfits : use.bytes - (sys.claims use.claim).bytes ≤ sys.status.limit - sys.status.used) :
    Exact (((sys.charge (use.bytes - (sys.claims use.claim).bytes)).setClaim use.claim
      ⟨use.bytes, use.bytes⟩).goes i (.finished true)) := by
  have hholds : (sys.ops i).holdsClaim = some use.claim := by rw [hphase]; rfl
  have hpermit := h.uses i use (by rw [hphase]; rfl)
  have hcounted := h.counted_of_claim (i := i) (by rw [hphase]; rfl) hholds (by grind)
  have hsized : (sys.claims use.claim).bytes < use.bytes := by
    simpa [hphase, Sized] using h.sized i
  have hlimit := h.limit
  apply h.wrote (h.lt_opCount (by simp [hphase])) (h.valid _ _ hpermit) _ _ (h.claim_alone hholds)
    (fun j _ => h.not_dropped hpermit j)
  all_goals grind [use?, holdsClaim, holdsBudget, drops, Sized]

theorem shrunk (h : Exact sys) (hphase : sys.ops i = .shrink .both use) :
    Exact (((sys.refund ((sys.claims use.claim).bytes - use.bytes)).setClaim use.claim
      { sys.claims use.claim with counted := use.bytes }).goes i (.shrink .updated use)) := by
  have hholds : (sys.ops i).holdsClaim = some use.claim := by rw [hphase]; rfl
  have hpermit := h.uses i use (by rw [hphase]; rfl)
  have hcounted := h.counted_of_claim (i := i) (by rw [hphase]; rfl) hholds (by grind)
  have hsized : use.bytes < (sys.claims use.claim).bytes := by
    simpa [hphase, Sized] using h.sized i
  have hle := h.counted_le_used (h.valid _ _ hpermit)
  have halone := h.claim_alone hholds
  have honly := h.unique i .both use hphase nofun
  have hlimit := h.limit
  have hpeak := h.peak
  rw [refund, if_pos (by omega)]
  apply h.wrote (h.lt_opCount (by simp [hphase])) (h.valid _ _ hpermit) _ _ halone
    (fun j _ => h.not_dropped hpermit j)
  all_goals grind [use?, holdsClaim, holdsBudget, drops, Sized]

theorem resized (h : Exact sys) (hphase : sys.ops i = .shrink .updated use) :
    Exact ((sys.setClaim use.claim { sys.claims use.claim with bytes := use.bytes }).goes i
      (.finished true)) := by
  have hholds : (sys.ops i).holdsClaim = some use.claim := by rw [hphase]; rfl
  have hpermit := h.uses i use (by rw [hphase]; rfl)
  have hcounted := h.updated i use hphase
  have hlimit := h.limit
  have hpeak := h.peak
  apply h.wrote (h.lt_opCount (by simp [hphase])) (h.valid _ _ hpermit) sys.status _
    (h.claim_alone hholds) (fun j _ => h.not_dropped hpermit j)
  all_goals grind [use?, holdsClaim, holdsBudget, drops, Sized]

theorem droppedClaim (h : Exact sys) (hphase : sys.ops i = .dropLocked c) :
    Exact (((sys.refund (sys.claims c).bytes).setClaim c
      { sys.claims c with counted := 0 }).goes i (.finished true)) := by
  obtain ⟨hc, hnone, hcounted, honly⟩ := h.dropped i c (by rw [hphase]; rfl)
  have hle := h.counted_le_used hc
  have hlimit := h.limit
  have hpeak := h.peak
  rw [refund, if_pos (by omega)]
  refine h.wrote (h.lt_opCount (by simp [hphase])) hc _ _ (fun j _ hj => ?_) (by grind) ?_ ?_ ?_ ?_
    ?_ ?_ ?_ ?_ ?_ ?_ ?_ ?_ ?_ ?_
  · obtain ⟨use, huse, rfl⟩ := use_of_holdsClaim hj
    exact hnone _ (h.uses j use huse)
  all_goals grind [use?, holdsClaim, holdsBudget, drops, Sized]

end Exact

end Steps

end KeyCompute.Memory
