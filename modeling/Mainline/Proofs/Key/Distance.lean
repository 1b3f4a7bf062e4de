import Mathlib.Order.Defs.LinearOrder
import Mainline.Key

/-!
# The order of distances

Distances are compared as unsigned numbers, which is a linear order. No two keys are equally far
from a third one, so keys can be filed under their distances. Only a key itself is not far from it
at all, and shares all bits with it.
-/

namespace Mainline

theorem Distance.ext_toNat {a b : Distance} (h : a.bits.toNat = b.bits.toNat) : a = b := by
  cases a
  cases b
  exact congrArg Distance.mk (BitVec.eq_of_toNat_eq h)

/-- Distances are ordered like the numbers that their bits spell. -/
instance : LinearOrder Distance where
  le_refl a := Nat.le_refl _
  le_trans a b c hab hbc := Nat.le_trans hab hbc
  lt_iff_le_not_ge a b := Nat.lt_iff_le_and_not_ge
  le_antisymm a b hab hba := Distance.ext_toNat (Nat.le_antisymm hab hba)
  le_total a b := Nat.le_total _ _
  toDecidableLE := inferInstance
  toDecidableLT := inferInstance
  toDecidableEq := inferInstance

theorem Key.distance_comm (a b : Key) : a.distance b = b.distance a :=
  congrArg Distance.mk (BitVec.xor_comm a.bits b.bits)

/-- **No two keys are equally far** from a third one. -/
theorem Key.distance_left_inj {a b target : Key} :
    a.distance target = b.distance target ↔ a = b := by
  constructor
  · intro h
    have hbits : a.bits ^^^ target.bits = b.bits ^^^ target.bits := congrArg Distance.bits h
    cases a
    cases b
    exact congrArg Key.mk ((BitVec.xor_left_inj _).mp hbits)
  · rintro rfl
    rfl

/-- A key is not far from itself alone. -/
theorem Key.distance_bits_eq_zero_iff {a b : Key} : (a.distance b).bits = 0 ↔ a = b := by
  refine BitVec.xor_eq_zero_iff.trans ⟨fun heq => ?_, congrArg Key.bits⟩
  cases a
  exact congrArg Key.mk heq

/-- Two keys share fewer than all bits exactly if they differ. -/
theorem Key.sharedBits_lt_iff {a b : Key} : a.sharedBits b < keyBits ↔ a ≠ b := by
  rw [sharedBits, Distance.leadingZeros, keyBits, Ne, ← distance_bits_eq_zero_iff]
  split
  · next same => simp [same]
  · next other =>
      refine iff_of_true ?_ other
      omega

end Mainline
