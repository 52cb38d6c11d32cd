import KeyCompute.Database.Value
import KeyCompute.Rendering.Digits

/-!
# The text of an identifier

The hyphenated form of a `Uuid` has 36 characters, hexadecimal digits and hyphens only
(`mem_toString`), and it determines the identifier (`toString_injective`).
-/

namespace KeyCompute.Uuid

open Rendering (fixedDigits)

theorem toNat_lt (u : Uuid) : u.bits.toNat < 16 ^ 32 :=
  have hpow : 2 ^ 128 = 16 ^ 32 := by decide
  hpow ▸ u.bits.isLt

/-- The digits of an identifier are those of its number, at a fixed length. -/
theorem hexDigits_eq (u : Uuid) : u.hexDigits = fixedDigits 16 32 u.bits.toNat :=
  Rendering.padded_eq_fixedDigits (by omega) (by omega) u.toNat_lt

@[simp] theorem length_hexDigits (u : Uuid) : u.hexDigits.length = 32 := by
  rw [hexDigits_eq, Rendering.length_fixedDigits]

theorem hexDigits_injective : Function.Injective hexDigits := by
  intro u v h
  rw [hexDigits_eq, hexDigits_eq] at h
  have hnat : u.bits.toNat = v.bits.toNat :=
    Rendering.fixedDigits_inj (by omega) (by omega) u.toNat_lt v.toNat_lt h
  exact congrArg Uuid.mk (BitVec.eq_of_toNat_eq hnat)

/-- The five groups of digits that the hyphens separate. -/
def groups (u : Uuid) : List (List Char) :=
  [u.hexDigits.take 8, (u.hexDigits.drop 8).take 4, (u.hexDigits.drop 12).take 4,
    (u.hexDigits.drop 16).take 4, (u.hexDigits.drop 20).take 12]

theorem toList_toString (u : Uuid) : (toString u).toList = ['-'].intercalate u.groups := by
  change (Uuid.toString u).toList = _
  rw [Uuid.toString, String.toList_intercalate]
  simp [groups]

/-- Without the hyphens, the text is the digits. -/
theorem flatten_groups (u : Uuid) : u.groups.flatten = u.hexDigits := by
  have hrest : (u.hexDigits.drop 20).take 12 = u.hexDigits.drop 20 := by
    rw [List.take_of_length_le]
    simp
  have hjoin : ∀ i n, (u.hexDigits.drop i).take n ++ u.hexDigits.drop (i + n) =
      u.hexDigits.drop i := by
    intro i n
    rw [← List.drop_drop, List.take_append_drop]
  simp only [groups, hrest, List.flatten_cons, List.flatten_nil, List.append_nil]
  rw [hjoin 16 4, hjoin 12 4, hjoin 8 4, List.take_append_drop]

theorem not_mem_hexDigits {c : Char} (hc : ∀ d < 16, c ≠ d.digitChar) (u : Uuid) :
    c ∉ u.hexDigits := by
  intro hmem
  rw [hexDigits_eq] at hmem
  obtain ⟨d, hd, heq⟩ := Rendering.mem_fixedDigits (by omega) hmem
  exact hc d hd heq

/-- **The text determines the identifier**: it is cut at the hyphens, which are no digits. -/
theorem toString_injective : Function.Injective (toString : Uuid → String) := by
  intro u v h
  have hdash : ∀ w : Uuid, ∀ g ∈ w.groups, '-' ∉ g := by
    intro w g hg hmem
    have hdigit : '-' ∈ w.hexDigits := flatten_groups w ▸ List.mem_flatten.mpr ⟨g, hg, hmem⟩
    exact not_mem_hexDigits (by decide) w hdigit
  have hlist := congrArg String.toList h
  rw [toList_toString, toList_toString] at hlist
  have hgroups : u.groups = v.groups := by
    rw [← List.splitOn_intercalate '-' (hdash u) (by simp [groups]), hlist,
      List.splitOn_intercalate '-' (hdash v) (by simp [groups])]
  apply hexDigits_injective
  rw [← flatten_groups, ← flatten_groups, hgroups]

theorem length_toString (u : Uuid) : (toString u).toList.length = 36 := by
  rw [toList_toString]
  simp [groups, List.intercalate_cons_cons]

/-- The text begins with a digit. -/
theorem head?_toString (u : Uuid) :
    ∃ d < 16, (toString u).toList.head? = some (Nat.digitChar d) := by
  have hhead : (toString u).toList.head? = u.hexDigits.head? := by
    rw [toList_toString]
    obtain ⟨c, rest, heq⟩ := List.exists_cons_of_length_eq_add_one (length_hexDigits u)
    simp [groups, heq, List.intercalate_cons_cons]
  obtain ⟨c, rest, heq⟩ := List.exists_cons_of_length_eq_add_one (length_hexDigits u)
  have hmem : c ∈ fixedDigits 16 32 u.bits.toNat := by
    rw [← hexDigits_eq, heq]
    exact List.mem_cons_self
  obtain ⟨d, hd, hc⟩ := Rendering.mem_fixedDigits (by omega) hmem
  refine ⟨d, hd, ?_⟩
  rw [hhead, heq, List.head?_cons, hc]

end KeyCompute.Uuid
