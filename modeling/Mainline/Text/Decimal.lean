import Mainline.Bytes

/-!
# Decimal numbers as octets

The decimal notation of the wire format: the canonical text of a number, and the readers that
accept it. Reading is more liberal than writing: leading zeros and, for signed numbers, a leading
`+` are understood.

## Main results

* `toNat?_ofNat` — the canonical text of a number reads back as that number.
* `toInt?_ofInt` — the same for signed numbers.
-/

namespace Mainline.Decimal

/-- Is the octet one of the ASCII digits `0` to `9`? -/
def isDigit (octet : UInt8) : Bool :=
  0x30 ≤ octet && octet ≤ 0x39

/-- The ASCII digit of a number below ten. -/
def digit (n : Nat) : UInt8 :=
  UInt8.ofNat (0x30 + n)

/-- The number that an ASCII digit stands for. -/
def digitValue (octet : UInt8) : Nat :=
  octet.toNat - 0x30

/-- The canonical decimal text of `n`: no leading zero unless `n` is zero itself. -/
def ofNat (n : Nat) : Bytes :=
  if n < 10 then [digit n] else ofNat (n / 10) ++ [digit (n % 10)]
  termination_by n
  decreasing_by omega

/-- The canonical decimal text of a signed number: a minus sign only below zero. -/
def ofInt (n : Int) : Bytes :=
  if n < 0 then 0x2d :: ofNat n.natAbs else ofNat n.natAbs

/-- The number written by a string of digits, the empty string counting as zero. -/
def value (digits : Bytes) : Nat :=
  digits.foldl (fun n octet => n * 10 + digitValue octet) 0

/-- Reads one or more digits, of which any number may be leading zeros. -/
def toNat? (s : Bytes) : Option Nat :=
  if s ≠ [] ∧ s.all isDigit then some (value s) else none

/-- Reads one or more digits behind at most one sign. -/
def toInt? : Bytes → Option Int
  | 0x2d :: s => (toNat? s).map fun n : Nat => -(n : Int)
  | 0x2b :: s => (toNat? s).map Int.ofNat
  | s => (toNat? s).map Int.ofNat

/-! ### Reading back what was written -/

theorem isDigit_digit {n : Nat} (h : n < 10) : isDigit (digit n) = true := by
  have : ∀ m : Fin 10, isDigit (digit m) = true := by decide
  exact this ⟨n, h⟩

theorem digitValue_digit {n : Nat} (h : n < 10) : digitValue (digit n) = n := by
  have : ∀ m : Fin 10, digitValue (digit m) = m := by decide
  exact this ⟨n, h⟩

theorem ofNat_ne_nil (n : Nat) : ofNat n ≠ [] := by
  rw [ofNat]; split <;> simp

theorem all_isDigit_ofNat (n : Nat) : (ofNat n).all isDigit = true := by
  fun_induction ofNat n with
  | case1 n h => simp [isDigit_digit h]
  | case2 n _ ih =>
    rw [List.all_append, ih]
    simp [isDigit_digit (Nat.mod_lt n (by decide))]

@[simp]
theorem value_concat (s : Bytes) (octet : UInt8) :
    value (s ++ [octet]) = value s * 10 + digitValue octet := by
  simp [value]

theorem value_ofNat (n : Nat) : value (ofNat n) = n := by
  fun_induction ofNat n with
  | case1 n h => simp [value, digitValue_digit h]
  | case2 n _ ih =>
    rw [value_concat, ih, digitValue_digit (Nat.mod_lt n (by decide))]
    omega

theorem toNat?_ofNat (n : Nat) : toNat? (ofNat n) = some n := by
  simp [toNat?, ofNat_ne_nil, all_isDigit_ofNat, value_ofNat]

/-- A canonical text starts with a digit, so it carries no sign. -/
theorem head?_ofNat (n : Nat) : ∃ d s, ofNat n = d :: s ∧ isDigit d = true := by
  match hs : ofNat n with
  | [] => exact absurd hs (ofNat_ne_nil n)
  | d :: s =>
    have h := all_isDigit_ofNat n
    rw [hs, List.all_cons, Bool.and_eq_true] at h
    exact ⟨d, s, rfl, h.1⟩

theorem toInt?_ofInt (n : Int) : toInt? (ofInt n) = some n := by
  unfold ofInt
  split
  · next h =>
    have hneg : -(n.natAbs : Int) = n := by omega
    rw [toInt?, toNat?_ofNat, Option.map_some, hneg]
  · next h =>
    obtain ⟨d, s, hs, hd⟩ := head?_ofNat n.natAbs
    have hminus : d ≠ 0x2d := by rintro rfl; exact absurd hd (by decide)
    have hplus : d ≠ 0x2b := by rintro rfl; exact absurd hd (by decide)
    have hread := toNat?_ofNat n.natAbs
    rw [hs] at hread ⊢
    rw [toInt?.eq_3 _ (by rintro s' heq; simp_all) (by rintro s' heq; simp_all), hread]
    simp; omega

end Mainline.Decimal
