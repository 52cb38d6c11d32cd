import KeyCompute.Memory.Exactness

/-!
# Every interleaving of the memory budget

Every step of a thread keeps `Exact`, so the budget is exact in every state of every run.  The
operations do not block each other for ever: the one with the lock of the budget waits for nothing,
and one with the lock of a claim waits for the budget at most.  Each step brings its operation
nearer to its end (`Phase.left`).
-/

namespace KeyCompute.Memory

open Budget Phase Function

variable {sys : Budget} {i c : ℕ} {phase : Phase} {use : Use}

namespace Exact

/-! ## The operations -/

theorem lockedDrop (h : Exact sys) (hphase : sys.ops i = .dropWaiting c)
    (hfree : ¬sys.budgetLocked = true) : Exact (sys.goes i (.dropLocked c)) := by
  refine h.goes (h.lt_opCount (by simp [hphase])) (Nat.le_refl _) (by rw [hphase]; rfl)
    (by simp [hphase]) ?_ ?_ ?_ (fun _ j _ => h.budget_free hfree j) trivial
  · exact fun _ huse => (nomatch huse)
  · exact fun _ _ heq => (nomatch heq)
  · exact fun _ hholds => (nomatch hholds)

theorem begins (h : Exact sys) (new : phase.drops = none)
    (uses : ∀ use, phase.use? = some use → sys.permits use.permit = some use.claim)
    (unique : ∀ stage use, phase = .shrink stage use → stage = .counting)
    (claim : phase.holdsClaim = none) (budget : phase.holdsBudget = false)
    (sized : phase.Sized sys.claims) : Exact (sys.begin phase) := by
  have hfresh := h.freshOps _ (Nat.le_refl _)
  refine h.goes (Nat.lt_succ_self _) (Nat.le_succ _) ?_ (fun use => iff_of_false ?_ ?_) uses
    (fun stage use hphase hne => ?_) (fun c hc => ?_) (fun hb => ?_) sized
  · rw [hfresh, new]
    rfl
  · exact fun hphase => (nomatch unique .updated use hphase)
  · rw [hfresh]
    exact fun hphase => (nomatch hphase)
  · exact absurd (unique stage use hphase) hne
  · rw [claim] at hc
    cases hc
  · rw [budget] at hb
    cases hb

theorem uses_same (h : Exact sys) (huse : (sys.ops i).use? = some use) (use' : Use)
    (heq : some use = some use') : sys.permits use'.permit = some use'.claim :=
  h.uses i use' (huse.trans heq)

theorem advance (h : Exact sys) (i : ℕ) : Exact (sys.advance i) := by
  cases hphase : sys.ops i with
  | reserveWaiting bytes =>
    have hi := h.lt_opCount (i := i) (by simp [hphase])
    simp only [Budget.advance, hphase]
    split
    · exact h
    · rename_i hfree
      exact h.goes hi (Nat.le_refl _) (by rw [hphase]; rfl) (by simp [hphase])
        (fun _ h => (nomatch h))
        (fun _ _ h => (nomatch h)) (fun _ h => (nomatch h)) (fun _ j _ => h.budget_free hfree j)
        trivial
  | reserveLocked bytes =>
    have hi := h.lt_opCount (i := i) (by simp [hphase])
    simp only [Budget.advance, hphase]
    split
    · exact h.ended hi (by rw [hphase]; rfl) (by simp [hphase]) false
    · exact h.reserved hphase (by omega)
  | grow stage use =>
    have hi := h.lt_opCount (i := i) (by simp [hphase])
    have hsame := h.uses_same (i := i) (by rw [hphase]; rfl)
    cases stage with
    | waiting =>
      simp only [Budget.advance, hphase]
      split
      · exact h
      · rename_i hfree
        exact h.goes hi (Nat.le_refl _) (by rw [hphase]; rfl) (by simp [hphase]) hsame
          (fun _ _ h => (nomatch h))
          (fun c hc j _ => Option.some.inj hc ▸ h.claim_free hfree j) (fun h => (nomatch h))
          trivial
    | claimed =>
      simp only [Budget.advance, hphase]
      split
      · exact h.ended hi (by rw [hphase]; rfl) (by simp [hphase]) true
      · split
        · exact h
        · rename_i hsize hfree
          exact h.goes hi (Nat.le_refl _) (by rw [hphase]; rfl) (by simp [hphase]) hsame
            (fun _ _ h => (nomatch h))
            (fun c hc => h.claim_alone (by rw [hphase]; exact hc))
            (fun _ j _ => h.budget_free hfree j) (Nat.lt_of_not_le hsize)
    | both =>
      simp only [Budget.advance, hphase]
      split
      · exact h.ended hi (by rw [hphase]; rfl) (by simp [hphase]) false
      · exact h.grew hphase (by omega)
  | shrink stage use =>
    have hi := h.lt_opCount (i := i) (by simp [hphase])
    have huse := h.uses i use (by rw [hphase]; rfl)
    have hsame := h.uses_same (i := i) (by rw [hphase]; rfl)
    -- once the strong count is read, the permit is the only one
    have honly : stage ≠ .counting → ∀ (stage' stage'' : ShrinkStage) (use' : Use),
        shrink stage' use = .shrink stage'' use' → stage'' ≠ .counting →
        ∀ p, sys.permits p = some use'.claim → p = use'.permit := by
      intro counted stage' stage'' use' heq _
      obtain ⟨-, rfl⟩ := shrink.inj heq
      exact h.unique i stage use hphase counted
    cases stage with
    | counting =>
      simp only [Budget.advance, hphase]
      split
      · exact h.ended hi (by rw [hphase]; rfl) (by simp [hphase]) true
      · rename_i hone
        refine h.goes hi (Nat.le_refl _) (by rw [hphase]; rfl) (by simp [hphase]) hsame
          (fun stage' use' heq _ p hp => ?_) (fun _ h => (nomatch h)) (fun h => (nomatch h))
          trivial
        obtain ⟨-, rfl⟩ := shrink.inj heq
        exact eq_of_strongCount h (Decidable.not_not.mp hone) hp huse
    | waiting =>
      simp only [Budget.advance, hphase]
      split
      · exact h
      · rename_i hfree
        exact h.goes hi (Nat.le_refl _) (by rw [hphase]; rfl) (by simp [hphase]) hsame
          (honly nofun .claimed)
          (fun c hc j _ => Option.some.inj hc ▸ h.claim_free hfree j) (fun h => (nomatch h))
          trivial
    | claimed =>
      simp only [Budget.advance, hphase]
      split
      · exact h.ended hi (by rw [hphase]; rfl) (by simp [hphase]) true
      · split
        · exact h
        · rename_i hsize hfree
          exact h.goes hi (Nat.le_refl _) (by rw [hphase]; rfl) (by simp [hphase]) hsame
            (honly nofun .both)
            (fun c hc => h.claim_alone (by rw [hphase]; exact hc))
            (fun _ j _ => h.budget_free hfree j) (Nat.lt_of_not_le hsize)
    | both =>
      simp only [Budget.advance, hphase]
      exact h.shrunk hphase
    | updated =>
      simp only [Budget.advance, hphase]
      exact h.resized hphase
  | dropWaiting claim =>
    simp only [Budget.advance, hphase]
    split
    · exact h
    · rename_i hfree
      exact h.lockedDrop hphase hfree
  | dropLocked claim =>
    simp only [Budget.advance, hphase]
    exact h.droppedClaim hphase
  | finished ok =>
    simp only [Budget.advance, hphase]
    exact h

/-! ## The permits -/

theorem not_borrowed {p : ℕ} (h : Exact sys) (hfree : ¬sys.borrowed p = true) (j : ℕ)
    (huse : (sys.ops j).use? = some use) : use.permit ≠ p := by
  have hnone := (someOp_eq_false h rfl).mp (Bool.eq_false_of_not_eq_true hfree) j
  rw [huse] at hnone
  simpa using hnone

theorem not_borrowedMut {p : ℕ} {stage : ShrinkStage} (h : Exact sys)
    (hfree : ¬sys.borrowedMut p = true) (j : ℕ) (hphase : sys.ops j = .shrink stage use) :
    use.permit ≠ p := by
  have hnone := (someOp_eq_false h rfl).mp (Bool.eq_false_of_not_eq_true hfree) j
  rw [hphase] at hnone
  simpa using hnone

theorem cloned {permit : ℕ} (h : Exact sys) (hpermit : sys.permits permit = some c)
    (hfree : ¬sys.borrowedMut permit = true) :
    Exact { sys with
      permits := update sys.permits sys.permitCount (some c),
      permitCount := sys.permitCount + 1 } := by
  have hkeeps : ∀ p c', sys.permits p = some c' →
      update sys.permits sys.permitCount (some c) p = some c' := by
    intro p c' hp
    rw [update_of_ne, hp]
    rintro rfl
    cases hp.symm.trans (h.freshPermits _ (Nat.le_refl _))
  -- the only permit of a claim is borrowed exclusively, so it is not the one that is cloned
  have hnot : ∀ j stage use, sys.ops j = .shrink stage use → use.permit ≠ permit :=
    fun j _ _ => h.not_borrowedMut hfree j
  refine ⟨h.healthy, h.used, h.limit, h.peak, h.freshOps, ?_, ?_, ?_, ?_, h.claimMutex,
    h.budgetMutex, h.sized, ?_, h.updated, ?_,
    fun c hc => (h.released c hc).imp_right (.imp_left fun ⟨p, hp⟩ => ⟨p, hkeeps p c hp⟩)⟩
  all_goals grind [Exact, update_apply]

theorem droppedPermit {permit : ℕ} (h : Exact sys) (hpermit : sys.permits permit = some c)
    (hfree : ¬sys.borrowed permit = true) : Exact (sys.dropPermit permit c) := by
  have hfresh : ∀ p, sys.permitCount ≤ p → update sys.permits permit none p = none := by
    intro p hp
    rw [update_apply, h.freshPermits p hp, ite_self]
  have huses : ∀ j use, (sys.ops j).use? = some use → use.permit ≠ permit :=
    fun j _ => h.not_borrowed hfree j
  have hkeeps : ∀ p c', p ≠ permit → sys.permits p = some c' →
      update sys.permits permit none p = some c' :=
    fun _ _ hne => (update_of_ne hne ..).trans
  have hop := h.freshOps _ (Nat.le_refl _)
  -- the last permit of a claim that is being shrunk is borrowed
  have hcounted : (sys.claims c).counted = (sys.claims c).bytes := by
    rcases h.settled permit c hpermit with heq | ⟨j, use, hj, heq⟩
    · exact heq
    · have honly := h.unique j .updated use hj nofun permit (by rw [heq]; exact hpermit)
      exact absurd honly.symm (huses j use (by rw [hj]; rfl))
  simp only [dropPermit]
  split
  · rename_i hzero
    have hnone := (strongCount_eq_zero hfresh).mp hzero
    unfold begin Budget.goes
    refine ⟨h.healthy, h.used, h.limit, h.peak, ?_, hfresh, ?_, ?_, ?_, ?_, ?_, ?_, ?_, ?_,
      fun p c' hp => ?_, fun c' hc' => ?_⟩
    case refine_10 =>
      refine (h.settled p c' (by grind [update_apply])).imp_right ?_
      rintro ⟨j, use, hj, hc⟩
      exact ⟨j, use, by grind [update_apply], hc⟩
    case refine_11 =>
      by_cases hne : c' = c
      · exact .inr (.inr ⟨sys.opCount, by grind [update_apply, drops]⟩)
      · refine (h.released c' hc').imp_right (.imp (.imp fun p hp => ?_) (.imp fun j hj => ?_))
        all_goals grind [update_apply, drops]
    all_goals grind [Exact, update_apply, use?, holdsClaim, holdsBudget,
      drops, Sized]
  · rename_i hpos
    rw [strongCount_eq_zero hfresh] at hpos
    push Not at hpos
    obtain ⟨q, hq⟩ := hpos
    refine ⟨h.healthy, h.used, h.limit, h.peak, h.freshOps, hfresh, ?_, ?_, ?_, h.claimMutex,
      h.budgetMutex, h.sized, ?_, h.updated, ?_, fun c' hc' => ?_⟩
    case refine_6 => grind [Exact]
    all_goals grind [Exact, update_apply]

/-! ## Whole runs -/

theorem step (h : Exact sys) (event : Event) : Exact (Budget.step event sys) := by
  cases event with
  | reserve bytes =>
    exact h.begins rfl (fun _ h => (nomatch h)) (fun _ _ h => (nomatch h)) rfl rfl trivial
  | growTo permit bytes =>
    simp only [Budget.step]
    split
    · rename_i claim hpermit
      split
      · exact h
      · refine h.begins rfl (fun use huse => ?_) (fun _ _ h => (nomatch h)) rfl rfl trivial
        obtain rfl := Option.some.inj huse
        exact hpermit
    · exact h
  | shrinkTo permit bytes =>
    simp only [Budget.step]
    split
    · rename_i claim hpermit
      split
      · exact h
      · refine h.begins rfl (fun use huse => ?_) (fun stage use hphase => ?_) rfl rfl trivial
        · obtain rfl := Option.some.inj huse
          exact hpermit
        · exact (shrink.inj hphase).1.symm
    · exact h
  | clone permit =>
    simp only [Budget.step]
    split
    · rename_i claim hpermit
      split
      · exact h
      · rename_i hfree
        exact h.cloned hpermit hfree
    · exact h
  | drop permit =>
    simp only [Budget.step]
    split
    · rename_i claim hpermit
      split
      · exact h
      · rename_i hfree
        exact h.droppedPermit hpermit hfree
    · exact h
  | advance op => exact h.advance op

theorem run (h : Exact sys) (events : List Event) : Exact (Budget.run events sys) :=
  Relational.runAll_invariant (fun event _ h => h.step event) events _ h

/-! ## What exactness says -/

theorem pos_strongCount_iff (h : Exact sys) :
    0 < sys.strongCount c ↔ ∃ p, sys.permits p = some c := by
  rw [Nat.pos_iff_ne_zero, ne_eq, strongCount_eq_zero h.freshPermits]
  push Not
  rfl

theorem used_eq (h : Exact sys) (hquiet : ∀ i, (sys.ops i).inProgress = false) :
    sys.status.used =
      ∑ c ∈ (Finset.range sys.claimCount).filter (0 < sys.strongCount ·), (sys.claims c).bytes := by
  rw [h.used, Finset.sum_filter]
  refine Finset.sum_congr rfl fun c hc => ?_
  split
  · rename_i hlive
    obtain ⟨p, hp⟩ := h.pos_strongCount_iff.mp hlive
    refine (h.settled p c hp).resolve_right fun ⟨i, use, hi, _⟩ => ?_
    grind [inProgress]
  · rename_i hdead
    have hnone := (strongCount_eq_zero h.freshPermits).mp (Nat.eq_zero_of_not_pos hdead)
    refine (h.released c (Finset.mem_range.mp hc)).resolve_right ?_
    rintro (⟨p, hp⟩ | ⟨i, hi⟩)
    · exact hnone p hp
    · have hdone := hquiet i
      cases hphase : sys.ops i <;> simp_all [inProgress, drops]

theorem strongCount_of_shrink {stage : ShrinkStage} (h : Exact sys)
    (hphase : sys.ops i = .shrink stage use) (hstage : stage ≠ .counting) :
    sys.strongCount use.claim = 1 := by
  have hpermit := h.uses i use (by rw [hphase]; rfl)
  have hlt : use.permit < sys.permitCount := by
    by_contra hge
    rw [h.freshPermits _ (Nat.le_of_not_lt hge)] at hpermit
    cases hpermit
  rw [strongCount, ← List.toFinset_card_of_nodup (List.nodup_range.filter _), Finset.card_eq_one]
  refine ⟨use.permit, Finset.ext fun p => ?_⟩
  simp only [List.mem_toFinset, List.mem_filter, List.mem_range, decide_eq_true_eq,
    Finset.mem_singleton]
  constructor
  · exact fun hp => h.unique i stage use hphase hstage p hp.2
  · rintro rfl
    exact ⟨hlt, hpermit⟩

end Exact

def Phase.asks : Phase → Bool
  | .reserveWaiting _ | .reserveLocked _ | .grow _ _ => true
  | _ => false

/-- The steps that are left to an operation, at most. -/
def Phase.left : Phase → ℕ
  | .reserveWaiting _ | .dropWaiting _ => 2
  | .reserveLocked _ | .dropLocked _ => 1
  | .grow .waiting _ => 3
  | .grow .claimed _ => 2
  | .grow .both _ => 1
  | .shrink .counting _ => 5
  | .shrink .waiting _ => 4
  | .shrink .claimed _ => 3
  | .shrink .both _ => 2
  | .shrink .updated _ => 1
  | .finished _ => 0

namespace Budget

section Refund

variable {bytes : ℕ}

@[simp] theorem refund_ops : (sys.refund bytes).ops = sys.ops := by
  unfold refund
  split <;> rfl

@[simp] theorem refund_opCount : (sys.refund bytes).opCount = sys.opCount := by
  unfold refund
  split <;> rfl

@[simp] theorem refund_claims : (sys.refund bytes).claims = sys.claims := by
  unfold refund
  split <;> rfl

@[simp] theorem refund_limit : (sys.refund bytes).status.limit = sys.status.limit := by
  unfold refund
  split <;> rfl

end Refund

theorem goes_self : sys.goes i (sys.ops i) = sys := by
  rw [goes, update_eq_self]

theorem advance_of_not_done (hasks : (sys.ops i).asks = true)
    (hdone : (sys.advance i).ops i ≠ .finished true) :
    ∃ phase, sys.advance i = sys.goes i phase := by
  revert hdone
  fun_cases sys.advance i
  all_goals intro hdone
  all_goals first
    | exact ⟨_, rfl⟩
    | exact ⟨_, goes_self.symm⟩
    | simp_all [asks, goes]

/-- The claim that a step of an operation writes: a new one, one that keeps its size or grows, or
that of a `shrink_to`. -/
theorem advance_claims (h : Exact sys) (i : ℕ) :
    (sys.advance i).claims = sys.claims ∨
    ∃ c value, (sys.advance i).claims = update sys.claims c value ∧
      (c = sys.claimCount ∨ (sys.claims c).bytes ≤ value.bytes ∨
        ∃ use, sys.ops i = .shrink .updated use ∧ use.claim = c) := by
  have hsized := h.sized i
  fun_cases sys.advance i
  all_goals simp only [goes, charge, addClaim, setClaim, refund_claims, true_or]
  all_goals exact .inr ⟨_, _, rfl, by grind [Sized]⟩

theorem step_claims (sys : Budget) (event : Event) :
    (step event sys).claims = sys.claims ∨ ∃ i, event = .advance i := by
  cases event with
  | advance i => exact .inr ⟨i, rfl⟩
  | _ =>
    simp only [step, dropPermit]
    grind [begin, goes]

/-- A size is reduced at the end of a `shrink_to` only. -/
theorem shrinks_of_lt {event : Event} (h : Exact sys) (hc : c < sys.claimCount)
    (hlt : ((step event sys).claims c).bytes < (sys.claims c).bytes) :
    ∃ i use, sys.ops i = .shrink .updated use ∧ use.claim = c := by
  rcases step_claims sys event with hsame | ⟨i, rfl⟩
  · rw [hsame] at hlt
    exact absurd hlt (Nat.lt_irrefl _)
  · rcases advance_claims h i with hsame | ⟨c', value, hwrites, hwhy⟩
    · rw [step, hsame] at hlt
      exact absurd hlt (Nat.lt_irrefl _)
    · rw [step, hwrites] at hlt
      by_cases hne : c = c'
      · grind [update_self, Exact]
      · grind

/-! ## Nobody waits for ever -/

/-- Where an operation is after its step: nearer to its end, if it was not blocked. -/
theorem advance_ops (sys : Budget) (i : ℕ) :
    (sys.advance i).opCount = sys.opCount ∧ (∀ j ≠ i, (sys.advance i).ops j = sys.ops j) ∧
    ((sys.ops i).inProgress = true → sys.blocked i = false →
      ((sys.advance i).ops i).left < (sys.ops i).left) := by
  fun_cases sys.advance i
  all_goals simp_all [goes, charge, addClaim, setClaim, blocked, left, inProgress]

/-- **No deadlock**: while an operation is in progress, one of them can step. -/
theorem exists_unblocked (h : Exact sys) (hi : (sys.ops i).inProgress = true) :
    ∃ j, (sys.ops j).inProgress = true ∧ sys.blocked j = false := by
  -- the operation with the lock of the budget, or else one with that of a claim, or else any
  by_cases hbudget : ∃ j, (sys.ops j).holdsBudget = true
  · obtain ⟨j, hj⟩ := hbudget
    refine ⟨j, ?_⟩
    unfold blocked
    split <;> simp_all [holdsBudget, inProgress]
    split at hj <;> simp_all
  · have hfree : sys.budgetLocked = false := (someOp_eq_false h rfl).mpr (by simpa using hbudget)
    by_cases hclaim : ∃ j c, (sys.ops j).holdsClaim = some c
    · obtain ⟨j, c, hj⟩ := hclaim
      refine ⟨j, ?_⟩
      unfold blocked
      split <;> simp_all [holdsClaim, inProgress]
      split at hj <;> simp_all
    · have hunlocked : ∀ c, sys.claimLocked c = false := fun c =>
        (someOp_eq_false h rfl).mpr fun j => decide_eq_false fun hj => hclaim ⟨j, c, hj⟩
      refine ⟨i, hi, ?_⟩
      unfold blocked
      split <;> simp_all

def left (sys : Budget) : ℕ := ∑ i ∈ Finset.range sys.opCount, (sys.ops i).left

theorem left_advance (h : Exact sys) (hi : (sys.ops i).inProgress = true)
    (hfree : sys.blocked i = false) : (sys.advance i).left < sys.left := by
  obtain ⟨hcount, hops, hlt⟩ := advance_ops sys i
  have hmem : i ∈ Finset.range sys.opCount :=
    Finset.mem_range.mpr (h.lt_opCount fun hphase => by rw [hphase] at hi; cases hi)
  rw [left, left, hcount]
  refine Finset.sum_lt_sum (fun j _ => ?_) ⟨i, hmem, hlt hi hfree⟩
  by_cases hj : j = i
  · rw [hj]
    exact Nat.le_of_lt (hlt hi hfree)
  · rw [hops j hj]

/-- **Every operation can be brought to its end** by steps of the operations alone. -/
theorem exists_completion (h : Exact sys) :
    ∃ ops : List ℕ, ∀ i, ((run (ops.map .advance) sys).ops i).inProgress = false := by
  induction hleft : sys.left using Nat.strong_induction_on generalizing sys with
  | _ n ih =>
    by_cases hdone : ∃ i, (sys.ops i).inProgress = true
    · obtain ⟨i, hi⟩ := hdone
      obtain ⟨j, hj, hfree⟩ := exists_unblocked h hi
      have hlt := left_advance h hj hfree
      obtain ⟨ops, hops⟩ := ih _ (hleft ▸ hlt) (h.advance j) rfl
      exact ⟨j :: ops, hops⟩
    · exact ⟨[], fun i => Bool.eq_false_of_not_eq_true fun hi => hdone ⟨i, hi⟩⟩

theorem step_limit (event : Event) : (step event sys).status.limit = sys.status.limit := by
  cases event with
  | advance i =>
    simp only [step]
    fun_cases sys.advance i
    all_goals simp only [goes, charge, addClaim, setClaim, refund_limit]
  | _ =>
    simp only [step, dropPermit]
    grind [begin, goes]

theorem run_limit (events : List Event) : (run events sys).status.limit = sys.status.limit :=
  Relational.runAll_invariant (I := fun s => s.status.limit = sys.status.limit)
    (fun event _ h => (step_limit event).trans h) events sys rfl

/-- **The budget is exact in every interleaving.**  `used` stays within the limit and the peak;
while no operation is in progress it is the size of the claims that are alive; no subtraction
fails; an operation that asks for memory changes nothing until it succeeds; a claim is shrunk only
while it has one permit; and no operation waits for ever. -/
theorem memory_budget_exact (limit : ℕ) (start : Budget) (hnew : new limit = .ok start)
    (events : List Event) (sys : Budget) (hsys : run events start = sys) :
    (sys.status.limit = limit ∧ sys.status.used ≤ limit ∧ sys.status.used ≤ sys.status.peak) ∧
    ((∀ i, (sys.ops i).inProgress = false) →
      sys.status.used =
        ∑ c ∈ (Finset.range sys.claimCount).filter (0 < sys.strongCount ·), (sys.claims c).bytes ∧
      ((∀ p, sys.permits p = none) → sys.status.used = 0)) ∧
    sys.failed = false ∧
    (∀ i, (sys.ops i).asks = true → (sys.advance i).ops i ≠ .finished true →
      ∃ phase, sys.advance i = sys.goes i phase) ∧
    (∀ i stage use, sys.ops i = .shrink stage use → stage ≠ .counting →
      sys.strongCount use.claim = 1) ∧
    (∀ event, ∀ c < sys.claimCount,
      ((step event sys).claims c).bytes < (sys.claims c).bytes → sys.strongCount c = 1) ∧
    (∀ i, (sys.ops i).inProgress = true →
      ∃ j, (sys.ops j).inProgress = true ∧ sys.blocked j = false ∧
        (sys.advance j).left < sys.left) ∧
    ∃ ops : List ℕ, ∀ i, ((run (ops.map .advance) sys).ops i).inProgress = false := by
  have h : Exact sys := hsys ▸ (exact_new hnew).run events
  have hlimit : sys.status.limit = limit := by
    rw [← hsys, run_limit]
    unfold new at hnew
    split at hnew
    · cases hnew
    · obtain rfl := Except.ok.inj hnew
      rfl
  refine ⟨⟨hlimit, hlimit ▸ h.limit, h.peak⟩, fun hquiet => ⟨h.used_eq hquiet, fun hnone => ?_⟩,
    h.healthy, fun i => advance_of_not_done, fun i stage use => h.strongCount_of_shrink,
    fun event c hc hlt => ?_, fun i hi => ?_, exists_completion h⟩
  · rw [h.used_eq hquiet]
    refine Finset.sum_eq_zero fun c hc => ?_
    obtain ⟨p, hp⟩ := h.pos_strongCount_iff.mp (Finset.mem_filter.mp hc).2
    rw [hnone p] at hp
    cases hp
  · obtain ⟨i, use, hphase, rfl⟩ := shrinks_of_lt h hc hlt
    exact h.strongCount_of_shrink hphase nofun
  · obtain ⟨j, hj, hfree⟩ := exists_unblocked h hi
    exact ⟨j, hj, hfree, left_advance h hj hfree⟩

/-- A reservation is grown and cloned; the shrinking of the clone is refused while both permits are
alive, and done after the other one is dropped. -/
def sharedEvents : List Event :=
  [.reserve 4, .advance 0, .advance 0, .growTo 0 6, .advance 1, .advance 1, .advance 1, .clone 0,
    .shrinkTo 1 2, .advance 2, .drop 0, .shrinkTo 1 2, .advance 3, .advance 3, .advance 3,
    .advance 3, .advance 3, .reserve 9, .advance 4, .advance 4]

theorem memory_budget_exact_shared :
    ∃ start, new 10 = .ok start ∧
      (run sharedEvents start).status = ⟨10, 2, 6⟩ ∧
      (run sharedEvents start).ops 4 = .finished false ∧
      (run sharedEvents start).failed = false :=
  ⟨_, rfl, by decide, by decide,
    (memory_budget_exact 10 _ rfl sharedEvents _ rfl).2.2.1⟩

end Budget

end KeyCompute.Memory
