import Mathlib

/-!
# Texts that determine what they print

A text built from several fields identifies them when it can be taken apart again: a field of fixed
width by its length (`List.append_inj`), the field behind the last separator by that separator
(`cut_last`).

`fixedDigits` prints a number in a given number of digits, `decimal` an integer number of fractional
units; both determine the number.
-/

namespace KeyCompute.Rendering

open List

/-! ## Separators -/

theorem cut_last {α : Type} {sep : α} {xs xs' ys ys' : List α} (hys : sep ∉ ys) (hys' : sep ∉ ys')
    (h : xs ++ sep :: ys = xs' ++ sep :: ys') : xs = xs' ∧ ys = ys' := by
  -- one of the two fronts continues the other; what it has more would hold the separator
  have hempty : ∀ {between us vs : List α}, sep ∉ us → sep :: us = between ++ sep :: vs →
      between = [] := by
    intro between us vs hus heq
    cases between with
    | nil => rfl
    | cons x between =>
      obtain ⟨-, heq⟩ := cons.inj heq
      exact absurd (heq ▸ mem_append_right between mem_cons_self) hus
  obtain ⟨between, hfront, hback⟩ | ⟨between, hfront, hback⟩ := append_eq_append_iff.mp h
  · obtain rfl := hempty hys hback
    simp_all
  · obtain rfl := hempty hys' hback
    simp_all

/-! ## Numbers of a fixed width -/

/-- The digits of `n` in base `b`, in exactly `width` places. -/
def fixedDigits (b : ℕ) : ℕ → ℕ → List Char
  | 0, _ => []
  | width + 1, n => fixedDigits b width (n / b) ++ [(n % b).digitChar]

@[simp] theorem length_fixedDigits (b width n : ℕ) : (fixedDigits b width n).length = width := by
  induction width generalizing n with
  | zero => rfl
  | succ width ih => simp [fixedDigits, ih]

theorem digitChar_inj {m n : ℕ} (hm : m < 16) (hn : n < 16) (h : m.digitChar = n.digitChar) :
    m = n := by
  have hall : ∀ a b : Fin 16, (a : ℕ).digitChar = (b : ℕ).digitChar → a = b := by decide
  exact congrArg Fin.val (hall ⟨m, hm⟩ ⟨n, hn⟩ h)

theorem fixedDigits_inj {b width m n : ℕ} (hb : 0 < b) (hbase : b ≤ 16) (hm : m < b ^ width)
    (hn : n < b ^ width) (h : fixedDigits b width m = fixedDigits b width n) : m = n := by
  induction width generalizing m n with
  | zero =>
    rw [Nat.pow_zero] at hm hn
    omega
  | succ width ih =>
    obtain ⟨hfront, hlast⟩ := append_inj' h rfl
    rw [Nat.pow_succ] at hm hn
    have hdiv : m / b = n / b := by
      apply ih _ _ hfront
      · exact Nat.div_lt_of_lt_mul (by rwa [Nat.mul_comm])
      · exact Nat.div_lt_of_lt_mul (by rwa [Nat.mul_comm])
    have hmod : m % b = n % b :=
      digitChar_inj ((Nat.mod_lt m hb).trans_le hbase) ((Nat.mod_lt n hb).trans_le hbase)
        (singleton_inj.mp hlast)
    rw [← Nat.div_add_mod m b, ← Nat.div_add_mod n b, hdiv, hmod]

theorem mem_fixedDigits {b width n : ℕ} {c : Char} (hb : 0 < b) (h : c ∈ fixedDigits b width n) :
    ∃ d < b, c = d.digitChar := by
  induction width generalizing n with
  | zero => exact absurd h not_mem_nil
  | succ width ih =>
    obtain h | h := mem_append.mp h
    · exact ih h
    · exact ⟨n % b, Nat.mod_lt n hb, mem_singleton.mp h⟩

theorem fixedDigits_zero (b width : ℕ) : fixedDigits b width 0 = replicate width '0' := by
  induction width with
  | zero => rfl
  | succ width ih =>
    rw [fixedDigits, Nat.zero_div, Nat.zero_mod, ih, replicate_succ']
    rfl

/-- The shortest form, padded with zeros. -/
def padded (b width n : ℕ) : List Char :=
  replicate (width - (Nat.toDigits b n).length) '0' ++ Nat.toDigits b n

theorem padded_eq_fixedDigits {b width n : ℕ} (hb : 1 < b) (hwidth : 0 < width)
    (hn : n < b ^ width) : padded b width n = fixedDigits b width n := by
  induction width generalizing n with
  | zero => exact absurd hwidth (Nat.lt_irrefl 0)
  | succ width ih =>
    by_cases hsmall : n < b
    · rw [padded, Nat.toDigits_of_lt_base hsmall, fixedDigits, Nat.div_eq_of_lt hsmall,
        Nat.mod_eq_of_lt hsmall, fixedDigits_zero]
      rfl
    · have hlarge : b ≤ n := Nat.le_of_not_lt hsmall
      have hquot : n / b < b ^ width := by
        rw [Nat.pow_succ] at hn
        exact Nat.div_lt_of_lt_mul (by rwa [Nat.mul_comm])
      have hpos : 0 < width := by
        rcases Nat.eq_zero_or_pos width with rfl | hpos
        · have := Nat.div_pos hlarge (by omega)
          rw [Nat.pow_zero] at hquot
          omega
        · exact hpos
      rw [fixedDigits, ← ih hpos hquot, padded, padded, Nat.toDigits_of_base_le hb hlarge,
        length_append, length_singleton, Nat.add_sub_add_right, append_assoc]

/-! ## Numbers with a fixed number of fractional digits -/

/-- `n / 10 ^ scale` as a decimal text with `scale` fractional digits. -/
def decimal (scale : ℕ) (n : ℤ) : List Char :=
  (if n < 0 then ['-'] else []) ++ Nat.toDigits 10 (n.natAbs / 10 ^ scale) ++
    '.' :: padded 10 scale (n.natAbs % 10 ^ scale)

theorem toDigits_ten_injective : Function.Injective (Nat.toDigits 10) := by
  intro m n h
  have hread := congrArg (Nat.ofDigitChars 10 · 0) h
  simpa only [Nat.ofDigitChars_ten_toDigits] using hread

theorem mem_padded_ten {scale n : ℕ} {c : Char} (h : c ∈ padded 10 scale n) : c.isDigit := by
  obtain h | h := mem_append.mp h
  · rw [eq_of_mem_replicate h]
    rfl
  · exact Nat.isDigit_of_mem_toDigits (by omega) (by omega) h

theorem mem_decimal {scale : ℕ} {n : ℤ} {c : Char} (h : c ∈ decimal scale n) :
    c = '-' ∨ c = '.' ∨ c.isDigit := by
  simp only [decimal, mem_append, mem_cons] at h
  obtain (h | h) | rfl | h := h
  · split at h
    · exact .inl (mem_singleton.mp h)
    · exact absurd h not_mem_nil
  · exact .inr (.inr (Nat.isDigit_of_mem_toDigits (by omega) (by omega) h))
  · exact .inr (.inl rfl)
  · exact .inr (.inr (mem_padded_ten h))

theorem sign_inj {m n : ℤ} {xs ys : List Char} (hxs : '-' ∉ xs) (hys : '-' ∉ ys)
    (h : (if m < 0 then ['-'] else []) ++ xs = (if n < 0 then ['-'] else []) ++ ys) :
    (m < 0 ↔ n < 0) ∧ xs = ys := by
  split at h <;> split at h
  · rename_i hm hn
    exact ⟨⟨fun _ => hn, fun _ => hm⟩, cons.inj h |>.2⟩
  · have h : '-' :: xs = ys := h
    exact absurd (h ▸ mem_cons_self) hys
  · have h : xs = '-' :: ys := h
    exact absurd (h ▸ mem_cons_self) hxs
  · rename_i hm hn
    exact ⟨⟨fun h => absurd h hm, fun h => absurd h hn⟩, h⟩

theorem decimal_injective {scale : ℕ} (hscale : 0 < scale) :
    Function.Injective (decimal scale) := by
  intro m n h
  have hdot : ∀ k, '.' ∉ padded 10 scale k := fun k hmem =>
    absurd (mem_padded_ten hmem) (by decide)
  have hdash : ∀ k, '-' ∉ Nat.toDigits 10 k := fun k hmem =>
    absurd (Nat.isDigit_of_mem_toDigits (by omega) (by omega) hmem) (by decide)
  obtain ⟨hfront, hfraction⟩ := cut_last (hdot _) (hdot _) h
  obtain ⟨hsign, hwhole⟩ := sign_inj (hdash _) (hdash _) hfront
  have hpow : 0 < 10 ^ scale := Nat.pow_pos (by omega)
  have hmod : m.natAbs % 10 ^ scale = n.natAbs % 10 ^ scale := by
    rw [padded_eq_fixedDigits (by omega) hscale (Nat.mod_lt _ hpow),
      padded_eq_fixedDigits (by omega) hscale (Nat.mod_lt _ hpow)] at hfraction
    exact fixedDigits_inj (by omega) (by omega) (Nat.mod_lt _ hpow) (Nat.mod_lt _ hpow) hfraction
  have hdiv : m.natAbs / 10 ^ scale = n.natAbs / 10 ^ scale := toDigits_ten_injective hwhole
  have habs : m.natAbs = n.natAbs := by
    rw [← Nat.div_add_mod m.natAbs (10 ^ scale), ← Nat.div_add_mod n.natAbs (10 ^ scale), hdiv,
      hmod]
  omega

end KeyCompute.Rendering
