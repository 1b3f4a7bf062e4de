import Mathlib.Algebra.Group.Nat.Defs
import Mainline.Key.Prefix
import Mainline.Proofs.Key.Distance

/-!
# Keys bit by bit

The first bits of a key are computed in two ways. A region keeps the number that they spell, which
is a quotient by a power of two; the bits that two keys share are counted by the logarithm of their
exclusive or. Both are told here from single bits, counted from the most significant one, so that
whatever is said of regions and whatever is said of shared bits can be compared.

## Main results

* `Prefix.stemOf_eq_iff`: the number that the first bits spell tells these bits.
* `Key.le_sharedBits_iff`, `Key.sharedBits_eq_iff`: the bits that two keys share.
* `Prefix.contains_leading_iff`: a region holds the keys that agree in its first bits.
* `Prefix.exists_sample_iff`: every key of a region can be drawn from it, and no other.
-/

namespace Mainline

/-- Two keys **agree** in their first `length` bits. -/
def Key.AgreeUpTo (length : ℕ) (a b : Key) : Prop :=
  ∀ i < length, a.bit i = b.bit i

theorem Key.agreeUpTo_succ_iff {length : ℕ} {a b : Key} :
    AgreeUpTo (length + 1) a b ↔ AgreeUpTo length a b ∧ a.bit length = b.bit length := by
  constructor
  · intro h
    exact ⟨fun i hi => h i (Nat.lt_succ_of_lt hi), h length (Nat.lt_succ_self length)⟩
  · rintro ⟨hfirst, hlast⟩ i hi
    obtain hlt | rfl := Nat.lt_succ_iff_lt_or_eq.mp hi
    · exact hfirst i hlt
    · exact hlast

/-- The first bit of a key is the highest one of the number that it spells. -/
theorem Key.bit_eq_testBit (key : Key) {i : ℕ} (hi : i < 160) :
    key.bit i = key.bits.toNat.testBit (159 - i) := by
  rw [Key.bit, BitVec.getMsbD_eq_getLsbD, BitVec.testBit_toNat]
  simp [hi]

/-- Flipping a bit changes this bit alone. -/
theorem Key.bit_flipBit (key : Key) {i : ℕ} (hi : i < 160) (j : ℕ) :
    (key.flipBit i).bit j = (key.bit j ^^ decide (j = i)) := by
  have hplace : 160 - (159 - i) - 1 = i := by omega
  have hlow : 159 - i < 160 := by omega
  rw [Key.bit, Key.flipBit, BitVec.getMsbD_xor, BitVec.getMsbD_twoPow, hplace, decide_eq_true hlow,
    Bool.true_and, Key.bit]

/-! ### Leading bits as a number -/

/-- **The number that the first bits spell tells these bits.** -/
theorem Prefix.stemOf_eq_iff {length : ℕ} (hlength : length ≤ 160) {a b : Key} :
    stemOf a length = stemOf b length ↔ Key.AgreeUpTo length a b := by
  have hstem : ∀ key : Key, ∀ j,
      (stemOf key length).testBit j = key.bits.toNat.testBit (j + (160 - length)) :=
    fun key j => Nat.testBit_div_two_pow _ j
  constructor
  · intro heq i hi
    have hbit : ∀ key : Key, key.bit i = (stemOf key length).testBit (length - 1 - i) := by
      intro key
      rw [key.bit_eq_testBit (by omega), hstem]
      congr 1
      omega
    rw [hbit, hbit, heq]
  · intro hagree
    refine Nat.eq_of_testBit_eq fun j => ?_
    rw [hstem, hstem]
    obtain hin | hout := Nat.lt_or_ge (j + (160 - length)) 160
    · have hplace : 159 - (159 - (j + (160 - length))) = j + (160 - length) := by omega
      have hbit := hagree (159 - (j + (160 - length))) (by omega)
      rwa [a.bit_eq_testBit (by omega), b.bit_eq_testBit (by omega), hplace] at hbit
    · have hzero : ∀ key : Key, key.bits.toNat.testBit (j + (160 - length)) = false := fun key =>
        Nat.testBit_lt_two_pow
          (Nat.lt_of_lt_of_le key.bits.isLt (Nat.pow_le_pow_right (by decide) hout))
      rw [hzero a, hzero b]

/-! ### Shared bits -/

/-- A distance begins with `n` zeros exactly if its first `n` bits spell zero. -/
theorem Distance.le_leadingZeros_iff {d : Distance} {n : ℕ} (hn : n ≤ 160) :
    n ≤ d.leadingZeros ↔ Prefix.stemOf ⟨d.bits⟩ n = 0 := by
  rw [leadingZeros, Prefix.stemOf, keyBits]
  split
  · next hzero =>
      rw [hzero]
      exact iff_of_true hn (Nat.zero_div _)
  · next hpos =>
      have hne : d.bits.toNat ≠ 0 := fun heq => hpos (BitVec.eq_of_toNat_eq heq)
      have hlog : d.bits.toNat.log2 < 160 := (Nat.log2_lt hne).mpr d.bits.isLt
      have hpow : 0 < Nat.pow 2 (160 - n) := Nat.pow_pos (by decide)
      have hsmall : d.bits.toNat.log2 < 160 - n ↔ d.bits.toNat < Nat.pow 2 (160 - n) :=
        Nat.log2_lt hne
      rw [Nat.div_eq_zero_iff_lt hpow]
      refine Iff.trans ?_ hsmall
      omega

theorem Distance.leadingZeros_le (d : Distance) : d.leadingZeros ≤ 160 := by
  rw [leadingZeros, keyBits]
  split <;> omega

/-- More leading zeros make a smaller distance. -/
theorem Distance.lt_of_leadingZeros_lt {d d' : Distance} (h : d'.leadingZeros < d.leadingZeros) :
    d < d' := by
  have hle := d.leadingZeros_le
  have hpow : 0 < Nat.pow 2 (160 - d.leadingZeros) := Nat.pow_pos (by decide)
  have hsmall := (le_leadingZeros_iff hle).mp (Nat.le_refl d.leadingZeros)
  have hlarge := mt (le_leadingZeros_iff hle).mpr (Nat.not_le.mpr h)
  rw [Prefix.stemOf, Nat.div_eq_zero_iff_lt hpow] at hsmall hlarge
  exact Nat.lt_of_lt_of_le hsmall (Nat.not_lt.mp hlarge)

/-- **Two keys share at least the first `n` bits** exactly if they agree in them. -/
theorem Key.le_sharedBits_iff {n : ℕ} (hn : n ≤ 160) {a b : Key} :
    n ≤ a.sharedBits b ↔ AgreeUpTo n a b := by
  calc n ≤ a.sharedBits b
      ↔ Prefix.stemOf ⟨a.bits ^^^ b.bits⟩ n = 0 := Distance.le_leadingZeros_iff hn
    _ ↔ Prefix.stemOf ⟨a.bits ^^^ b.bits⟩ n = Prefix.stemOf ⟨0⟩ n := by simp [Prefix.stemOf]
    _ ↔ AgreeUpTo n ⟨a.bits ^^^ b.bits⟩ ⟨0⟩ := Prefix.stemOf_eq_iff hn
    _ ↔ AgreeUpTo n a b := by simp [AgreeUpTo, Key.bit]

/-- Two keys share exactly the bits before the first one in which they differ. -/
theorem Key.sharedBits_eq_iff {i : ℕ} (hi : i < 160) {a b : Key} :
    a.sharedBits b = i ↔ AgreeUpTo i a b ∧ a.bit i ≠ b.bit i := by
  have hat := le_sharedBits_iff (Nat.le_of_lt hi) (a := a) (b := b)
  have hbeyond := (le_sharedBits_iff (Nat.succ_le_of_lt hi) (a := a) (b := b)).trans agreeUpTo_succ_iff
  constructor
  · intro heq
    have hagree := hat.mp (Nat.le_of_eq heq.symm)
    refine ⟨hagree, fun hbit => ?_⟩
    have hmore := hbeyond.mpr ⟨hagree, hbit⟩
    omega
  · rintro ⟨hagree, hbit⟩
    have hleast := hat.mpr hagree
    have hmost : ¬ i + 1 ≤ a.sharedBits b := fun hmore => hbit (hbeyond.mp hmore).2
    omega

/-! ### Regions -/

/-- The octets that a stream was given are drawn first. -/
theorem ByteStream.fst_take_given (drawn : Bytes) (state : UInt32) :
    (ByteStream.take drawn.length ⟨drawn, state⟩).1 = drawn := by
  induction drawn with
  | nil => rfl
  | cons octet drawn ih => exact congrArg (octet :: ·) ih

namespace Prefix

/-- **A region holds the keys that agree** with the one it was made of in its first bits. -/
theorem contains_leading_iff {key key' : Key} {length : ℕ} :
    (key.leading length).contains key' = true ↔ Key.AgreeUpTo (min length 160) key' key :=
  beq_iff_eq.trans (stemOf_eq_iff (Nat.min_le_right length 160))

/-- The number that a filled key spells: the fixed bits, and behind them the last of those drawn. -/
theorem toNat_fill (p : Prefix) (drawn : Bytes) : (p.fill drawn).bits.toNat =
    2 ^ (160 - p.length) * p.stem + ofBigEndian drawn % 2 ^ (160 - p.length) := by
  have hpos : 0 < 2 ^ (160 - p.length) := Nat.pow_pos (by decide)
  have hfree : ofBigEndian drawn % 2 ^ (160 - p.length) < 2 ^ (160 - p.length) := Nat.mod_lt _ hpos
  have hspace : 2 ^ p.length * 2 ^ (160 - p.length) = 2 ^ 160 := by
    rw [← Nat.pow_add, Nat.add_sub_cancel' p.length_le]
  have hstem : p.stem + 1 ≤ 2 ^ p.length := p.stem_lt
  have hlt : p.stem * 2 ^ (160 - p.length) + ofBigEndian drawn % 2 ^ (160 - p.length) < 2 ^ 160 := by
    have hle := Nat.mul_le_mul_right (2 ^ (160 - p.length)) hstem
    rw [hspace, Nat.succ_mul] at hle
    omega
  have hbits : (p.fill drawn).bits.toNat =
      (p.stem * 2 ^ (160 - p.length) + ofBigEndian drawn % 2 ^ (160 - p.length)) % 2 ^ 160 :=
    BitVec.toNat_ofNat _ _
  rw [hbits, Nat.mod_eq_of_lt hlt, Nat.mul_comm]

/-- What is drawn fills the free bits of a region, and the key lies in the region. -/
theorem contains_fill (p : Prefix) (drawn : Bytes) : p.contains (p.fill drawn) = true := by
  have hpos : 0 < 2 ^ (160 - p.length) := Nat.pow_pos (by decide)
  have hstem : (p.fill drawn).bits.toNat / 2 ^ (160 - p.length) = p.stem := by
    rw [toNat_fill, Nat.mul_add_div hpos, Nat.div_eq_of_lt (Nat.mod_lt _ hpos), Nat.add_zero]
  exact beq_iff_eq.mpr hstem

/-- A key of a region is filled from its own free bits. -/
theorem exists_fill_eq {p : Prefix} {key : Key} (h : p.contains key = true) :
    ∃ drawn, drawn.length = p.freeOctets ∧ p.fill drawn = key := by
  have hstem : key.bits.toNat / 2 ^ (160 - p.length) = p.stem := beq_iff_eq.mp h
  have hoctets : 160 - p.length ≤ 8 * p.freeOctets := by
    have hle := p.length_le
    rw [freeOctets, keyLength]
    split <;> omega
  have hdvd : 2 ^ (160 - p.length) ∣ 256 ^ p.freeOctets := by
    rw [show (256 : ℕ) = 2 ^ 8 from rfl, ← Nat.pow_mul]
    exact Nat.pow_dvd_pow 2 hoctets
  refine ⟨bigEndian p.freeOctets key.bits.toNat, bigEndian_length _ _, ?_⟩
  have hbits : p.stem * 2 ^ (160 - p.length) +
      ofBigEndian (bigEndian p.freeOctets key.bits.toNat) % 2 ^ (160 - p.length) =
        key.bits.toNat := by
    rw [ofBigEndian_bigEndian, Nat.pow_eq, Nat.mod_mod_of_dvd _ hdvd, ← hstem, Nat.mul_comm,
      Nat.div_add_mod]
  have hfill : p.fill (bigEndian p.freeOctets key.bits.toNat) =
      ⟨BitVec.ofNat 160 key.bits.toNat⟩ := congrArg (Key.mk ∘ BitVec.ofNat 160) hbits
  rw [hfill, BitVec.ofNat_toNat, BitVec.setWidth_eq]

/-- **Every key of a region can be drawn from it**, and no other. -/
theorem exists_sample_iff {p : Prefix} {key : Key} :
    (∃ stream, (p.sample stream).1 = key) ↔ p.contains key = true := by
  constructor
  · rintro ⟨stream, rfl⟩
    exact p.contains_fill _
  · intro h
    obtain ⟨drawn, hlength, hfill⟩ := exists_fill_eq h
    refine ⟨⟨drawn, 0⟩, ?_⟩
    rw [sample, ← hlength]
    dsimp only
    rw [ByteStream.fst_take_given, hfill]

end Prefix

end Mainline
