import Mathlib

/-!
# Cutting a stream into frames

A `Cut` finds where the first frame of a buffer ends.  An end that was found stays where it is when
more input arrives (`stable`), and an end inside the buffer is found without further input (`seen`).

`Cut.split` takes every frame off a buffer and leaves the unfinished rest.  Input may arrive in any
pieces (`split_append`): the frames of a longer buffer are those of the shorter one, followed by the
frames of its rest and the new input together.
-/

namespace KeyCompute.Framing

/-- Where the first frame of a buffer ends. -/
structure Cut (α : Type) where
  cut : List α → Option ℕ
  pos : ∀ {buffer n}, cut buffer = some n → 0 < n
  le : ∀ {buffer n}, cut buffer = some n → n ≤ buffer.length
  stable : ∀ {buffer n} more, cut buffer = some n → cut (buffer ++ more) = some n
  seen : ∀ {buffer n} more, cut (buffer ++ more) = some n → n < buffer.length →
    cut buffer = some n

namespace Cut

variable {α : Type} (k : Cut α) {buffer more : List α} {n : ℕ}

/-- The frames of a buffer, and what is left behind the last of them. -/
def split (buffer : List α) : List (List α) × List α :=
  match h : k.cut buffer with
  | none => ([], buffer)
  | some n =>
    have : 0 < n ∧ n ≤ buffer.length := ⟨k.pos h, k.le h⟩
    let behind := split (buffer.drop n)
    (buffer.take n :: behind.1, behind.2)
termination_by buffer.length
decreasing_by
  rw [List.length_drop]
  omega

theorem split_of_none (h : k.cut buffer = none) : k.split buffer = ([], buffer) := by
  rw [split]
  split
  · rfl
  · simp_all

theorem split_of_some (h : k.cut buffer = some n) :
    k.split buffer =
      (buffer.take n :: (k.split (buffer.drop n)).1, (k.split (buffer.drop n)).2) := by
  rw [split]
  split
  · simp_all
  · rename_i m hm
    obtain rfl : m = n := Option.some.inj (hm.symm.trans h)
    rfl

theorem induct {P : List α → Prop} (rest : ∀ buffer, k.cut buffer = none → P buffer)
    (frame : ∀ buffer n, k.cut buffer = some n → P (buffer.drop n) → P buffer)
    (buffer : List α) : P buffer := by
  induction hlen : buffer.length using Nat.strongRecOn generalizing buffer with
  | ind len ih =>
    cases hcut : k.cut buffer with
    | none => exact rest buffer hcut
    | some n =>
      have hpos := k.pos hcut
      have hle := k.le hcut
      exact frame buffer n hcut (ih _ (by rw [List.length_drop]; omega) _ rfl)

theorem cut_rest (buffer : List α) : k.cut (k.split buffer).2 = none := by
  induction buffer using k.induct with
  | rest buffer h => rw [k.split_of_none h]; exact h
  | frame buffer n h ih => rw [k.split_of_some h]; exact ih

theorem flatten_split (buffer : List α) :
    (k.split buffer).1.flatten ++ (k.split buffer).2 = buffer := by
  induction buffer using k.induct with
  | rest buffer h => simp [k.split_of_none h]
  | frame buffer n h ih =>
    rw [k.split_of_some h, List.flatten_cons, List.append_assoc, ih, List.take_append_drop]

/-- **Input may arrive in pieces.** -/
theorem split_append (buffer more : List α) :
    k.split (buffer ++ more) =
      ((k.split buffer).1 ++ (k.split ((k.split buffer).2 ++ more)).1,
        (k.split ((k.split buffer).2 ++ more)).2) := by
  induction buffer using k.induct with
  | rest buffer h => simp [k.split_of_none h]
  | frame buffer n h ih =>
    have hle := k.le h
    have htake : (buffer ++ more).take n = buffer.take n := List.take_append_of_le_length hle
    have hdrop : (buffer ++ more).drop n = buffer.drop n ++ more :=
      List.drop_append_of_le_length hle
    rw [k.split_of_some (k.stable more h), k.split_of_some h, htake, hdrop, ih]
    rfl

theorem length_le_of_cut_append (h : k.cut buffer = none) (h' : k.cut (buffer ++ more) = some n) :
    buffer.length ≤ n := by
  by_contra hlt
  have hseen := k.seen more h' (by omega)
  rw [h] at hseen
  cases hseen

theorem exists_piece_of_rest (h : k.cut buffer = none) (more : List α) :
    (∃ frame ∈ (k.split (buffer ++ more)).1, buffer.length ≤ frame.length) ∨
      ((k.split (buffer ++ more)).1 = [] ∧ (k.split (buffer ++ more)).2 = buffer ++ more) := by
  cases hcut : k.cut (buffer ++ more) with
  | none =>
    right
    simp [k.split_of_none hcut]
  | some n =>
    left
    refine ⟨(buffer ++ more).take n, by simp [k.split_of_some hcut], ?_⟩
    rw [List.length_take, Nat.min_eq_left (k.le hcut)]
    exact k.length_le_of_cut_append h hcut

end Cut

end KeyCompute.Framing
