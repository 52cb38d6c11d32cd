import Mathlib

/-!
# Loops with early exits

A loop over a list whose body may go on to the next turn, leave the loop or return from the
enclosing function; `after` is the code behind the loop.  `loop_rule` is the rule such a loop is
reasoned with: an invariant of the state before each turn, kept by every turn that goes on and
strong enough for every way out.
-/

namespace KeyCompute.Control

variable {ι σ ρ : Type}

inductive Turn (σ ρ : Type) where
  | next (s : σ)
  | leave (s : σ)
  | answer (r : ρ) (s : σ)

/-- The loop over the remaining turns, from turn number `i`. -/
def loop (turn : ℕ → ι → σ → Turn σ ρ) (after : σ → ρ × σ) : ℕ → List ι → σ → ρ × σ
  | _, [], s => after s
  | i, x :: rest, s =>
    match turn i x s with
    | .next s' => loop turn after (i + 1) rest s'
    | .leave s' => after s'
    | .answer r s' => (r, s')

/-- What a turn has to guarantee: the invariant `I` for the next turn, or the result `Q` of the
whole loop. -/
def Turn.Ensures (after : σ → ρ × σ) (I : σ → Prop) (Q : ρ × σ → Prop) : Turn σ ρ → Prop
  | next s => I s
  | leave s => Q (after s)
  | answer r s => Q (r, s)

variable {turn : ℕ → ι → σ → Turn σ ρ}

theorem loop_rule {after : σ → ρ × σ} {I : ℕ → σ → Prop} {Q : ρ × σ → Prop} {xs : List ι}
    (hturn : ∀ i x s, xs[i]? = some x → I i s → (turn i x s).Ensures after (I (i + 1)) Q)
    (hafter : ∀ s, I xs.length s → Q (after s)) {s : σ} (h : I 0 s) :
    Q (loop turn after 0 xs s) := by
  -- the induction is on the turns that remain, with those already taken in front
  have hrest : ∀ (rest taken : List ι) (s : σ), xs = taken ++ rest → I taken.length s →
      Q (loop turn after taken.length rest s) := by
    intro rest
    induction rest with
    | nil =>
      intro taken s hxs hI
      rw [List.append_nil] at hxs
      exact hafter s (hxs ▸ hI)
    | cons x rest ih =>
      intro taken s hxs hI
      have hx : xs[taken.length]? = some x := by simp [hxs]
      have hensures := hturn taken.length x s hx hI
      rw [loop]
      cases hstep : turn taken.length x s with
      | next s' =>
        rw [hstep] at hensures
        have hlength : (taken ++ [x]).length = taken.length + 1 := by simp
        have hgo := ih (taken ++ [x]) s' (by simp [hxs]) (hlength ▸ hensures)
        rwa [hlength] at hgo
      | leave s' =>
        rw [hstep] at hensures
        exact hensures
      | answer r s' =>
        rw [hstep] at hensures
        exact hensures
  exact hrest xs [] s rfl h

/-- Two turns that end in the same way, whatever the states are. -/
def Turn.SameEnd : Turn σ ρ → Turn σ ρ → Prop
  | next _, next _ => True
  | leave _, leave _ => True
  | answer r _, answer r' _ => r = r'
  | _, _ => False

/-- **A loop whose turns end alike from every state answers alike.** -/
theorem loop_fst_eq {after : σ → ρ × σ} (hturn : ∀ i x s t, (turn i x s).SameEnd (turn i x t))
    (hafter : ∀ s t, (after s).1 = (after t).1) (xs : List ι) (i : ℕ) (s t : σ) :
    (loop turn after i xs s).1 = (loop turn after i xs t).1 := by
  induction xs generalizing i s t with
  | nil => exact hafter s t
  | cons x rest ih =>
    have hsame := hturn i x s t
    rw [loop, loop]
    cases hs : turn i x s <;> cases ht : turn i x t <;> rw [hs, ht] at hsame
    case next.next s' t' => exact ih (i + 1) s' t'
    case leave.leave s' t' => exact hafter s' t'
    case answer.answer r s' r' t' => exact hsame
    all_goals cases hsame

end KeyCompute.Control
