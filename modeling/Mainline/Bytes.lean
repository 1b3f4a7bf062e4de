/-!
# Byte strings

Everything that travels in a datagram, and every identifier, token and secret, is a list of
octets. This module fixes that representation and the two readings of it that the rest of the
library needs: plain ASCII words, which name protocol fields, and unsigned numbers written most
significant octet first, which are identifiers and ports.

## Main results

* `bigEndian_length` — a number written in `width` octets takes exactly `width` octets.
* `ofBigEndian_bigEndian` — reading back what was written gives the number modulo 256 to the power of `width`.
* `bigEndian_ofBigEndian` — writing a number read from octets gives those octets back.
-/

namespace Mainline

/-- A string of octets. -/
abbrev Bytes := List UInt8

/-- The octets of an ASCII word. Used for the fixed words of the protocol only, none of which
holds a character above `0x7f`. -/
def ascii (word : String) : Bytes :=
  word.toList.map fun c => UInt8.ofNat c.toNat

/-! ### Unsigned numbers, most significant octet first -/

/-- `n` in `width` octets, most significant first; higher octets of `n` are dropped. -/
def bigEndian : (width : Nat) → (n : Nat) → Bytes
  | 0, _ => []
  | width + 1, n => bigEndian width (n / 256) ++ [UInt8.ofNat n]

/-- The unsigned number whose octets, most significant first, are `s`. -/
def ofBigEndian (s : Bytes) : Nat :=
  s.foldl (fun n octet => n * 256 + octet.toNat) 0

@[simp]
theorem bigEndian_length (width n : Nat) : (bigEndian width n).length = width := by
  induction width generalizing n with
  | zero => rfl
  | succ width ih => simp [bigEndian, ih]

@[simp]
theorem ofBigEndian_nil : ofBigEndian [] = 0 := rfl

@[simp]
theorem ofBigEndian_concat (s : Bytes) (octet : UInt8) :
    ofBigEndian (s ++ [octet]) = ofBigEndian s * 256 + octet.toNat := by
  simp [ofBigEndian]

theorem ofBigEndian_bigEndian (width n : Nat) :
    ofBigEndian (bigEndian width n) = n % Nat.pow 256 width := by
  change _ = n % 256 ^ width
  induction width generalizing n with
  | zero => simp [bigEndian, Nat.mod_one]
  | succ width ih =>
    have hsplit : n % 256 ^ (width + 1) = n / 256 % 256 ^ width * 256 + n % 256 := by
      rw [Nat.pow_succ, Nat.mul_comm (256 ^ width) 256, Nat.mod_mul]
      omega
    simp [bigEndian, ih, hsplit]

theorem bigEndian_ofBigEndian (s : Bytes) : bigEndian s.length (ofBigEndian s) = s := by
  suffices h : ∀ (width : Nat) (s : Bytes), s.length = width → bigEndian width (ofBigEndian s) = s from
    h s.length s rfl
  intro width
  induction width with
  | zero => intro s hs; simp [List.length_eq_zero_iff.mp hs, bigEndian]
  | succ width ih =>
    intro s hs
    have hne : s ≠ [] := by rintro rfl; simp at hs
    obtain ⟨front, last, rfl⟩ : ∃ front last, s = front ++ [last] :=
      ⟨s.dropLast, s.getLast hne, (List.dropLast_concat_getLast hne).symm⟩
    have hfront : front.length = width := by simpa using hs
    have hlast : last.toNat < 256 := last.toNat_lt
    have hdiv : (ofBigEndian front * 256 + last.toNat) / 256 = ofBigEndian front := by omega
    have hmod : UInt8.ofNat (ofBigEndian front * 256 + last.toNat) = last := by
      apply UInt8.toNat_inj.mp
      simp only [UInt8.toNat_ofNat']
      omega
    simp [bigEndian, hdiv, hmod, ih front hfront]

theorem ofBigEndian_lt (s : Bytes) : ofBigEndian s < Nat.pow 256 s.length := by
  have h := ofBigEndian_bigEndian s.length (ofBigEndian s)
  rw [bigEndian_ofBigEndian] at h
  rw [h]
  exact Nat.mod_lt _ (Nat.pow_pos (by decide))

end Mainline
