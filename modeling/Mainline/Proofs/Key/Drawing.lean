import Mathlib.Data.List.GetD
import Mathlib.Data.List.Induction
import Mathlib.Data.Set.Card
import Mainline.Proofs.Key.Bits

/-!
# Drawing keys from a region

A random key of a region begins with the bits of the region, and the rest of it is drawn octet by
octet. Few regions end where an octet does, so the first octet that is drawn fills the key only from
the first free bit on. This module says where each bit of such a key comes from, and how many draws
give the same key: as many for one key of the region as for any other, so that no part of the region
is favoured if no octet is.

## Main results

* `Key.bitAt_toBytes`: the bits of a key in its octets.
* `Prefix.bit_fill_of_le`: the free bits of a key are those that were drawn in their place.
* `Prefix.ncard_draws`: every key of a region is drawn equally often.
* `regions_told_and_drawn_by_bits`: which keys a region holds, and how they are drawn.
-/

namespace Mainline

/-- Bit `index` of a string of octets, counted from the most significant bit of the first one. -/
def bitAt (s : Bytes) (index : ℕ) : Bool :=
  (s.getD (index / 8) 0).toBitVec.getMsbD (index % 8)

theorem bitAt_append (s t : Bytes) (i : ℕ) :
    bitAt (s ++ t) i = if i < 8 * s.length then bitAt s i else bitAt t (i - 8 * s.length) := by
  split
  · next hin => rw [bitAt, List.getD_append _ _ _ _ (by omega), bitAt]
  · next hout =>
      have hplace : (i - 8 * s.length) / 8 = i / 8 - s.length := by omega
      have hbit : (i - 8 * s.length) % 8 = i % 8 := by omega
      rw [bitAt, List.getD_append_right _ _ _ _ (by omega), bitAt, hplace, hbit]

/-- The bits of a number are those of its octets. -/
theorem testBit_ofBigEndian (s : Bytes) {i : ℕ} (hi : i < 8 * s.length) :
    (ofBigEndian s).testBit (8 * s.length - 1 - i) = bitAt s i := by
  induction s using List.reverseRecOn generalizing i with
  | nil => simp at hi
  | append_singleton s octet ih =>
      have hlength : (s ++ [octet]).length = s.length + 1 := by simp
      rw [hlength] at hi ⊢
      have hsplit : ofBigEndian (s ++ [octet]) = 2 ^ 8 * ofBigEndian s + octet.toNat := by
        rw [ofBigEndian_concat]
        omega
      rw [hsplit, Nat.testBit_two_pow_mul_add _ octet.toNat_lt, bitAt_append]
      by_cases hbefore : i < 8 * s.length
      · rw [if_neg (by omega), if_pos hbefore, ← ih hbefore]
        congr 1
        omega
      · have hlow : i - 8 * s.length < 8 := by omega
        rw [if_pos (by omega), if_neg hbefore, bitAt, Nat.div_eq_of_lt hlow, Nat.mod_eq_of_lt hlow,
          List.getD_cons_zero, BitVec.getMsbD_eq_getLsbD, decide_eq_true hlow, Bool.true_and,
          ← BitVec.testBit_toNat, UInt8.toNat_toBitVec]
        congr 1
        omega

/-- Twenty octets hold a number of 160 bits. -/
theorem ofBigEndian_bits (bits : BitVec 160) :
    ofBigEndian (bigEndian keyLength bits.toNat) = bits.toNat := by
  rw [ofBigEndian_bigEndian]
  exact Nat.mod_eq_of_lt bits.isLt

/-- **The bits of a key are those of its octets.** -/
theorem Key.bitAt_toBytes (key : Key) {i : ℕ} (hi : i < 160) : bitAt key.toBytes i = key.bit i := by
  have hlength : key.toBytes.length = 20 := bigEndian_length _ _
  have hnumber : ofBigEndian key.toBytes = key.bits.toNat := ofBigEndian_bits key.bits
  rw [← testBit_ofBigEndian _ (by omega), hlength, hnumber, key.bit_eq_testBit hi]

/-- Of all numbers of `n` octets, as many leave a given remainder as the divisor goes into their
number. -/
theorem ncard_ofBigEndian_mod {n count divisor low : ℕ} (hspace : 256 ^ n = count * divisor)
    (hlow : low < divisor) :
    {s : Bytes | s.length = n ∧ ofBigEndian s % divisor = low}.ncard = count := by
  have hpos : 0 < divisor := Nat.lt_of_le_of_lt (Nat.zero_le _) hlow
  have hread : ∀ q < count,
      ofBigEndian (bigEndian n (divisor * q + low)) = divisor * q + low := by
    intro q hq
    rw [ofBigEndian_bigEndian, Nat.pow_eq, hspace]
    refine Nat.mod_eq_of_lt ?_
    calc divisor * q + low < divisor * q + divisor := Nat.add_lt_add_left hlow _
      _ = (q + 1) * divisor := by rw [Nat.succ_mul, Nat.mul_comm]
      _ ≤ count * divisor := Nat.mul_le_mul_right divisor hq
  have himage : {s : Bytes | s.length = n ∧ ofBigEndian s % divisor = low} =
      (fun q => bigEndian n (divisor * q + low)) '' Finset.range count := by
    ext s
    simp only [Set.mem_ofPred_eq, Set.mem_image, Finset.mem_coe, Finset.mem_range]
    constructor
    · rintro ⟨rfl, rfl⟩
      have hlt : ofBigEndian s < divisor * count := by
        rw [Nat.mul_comm, ← hspace]
        exact ofBigEndian_lt s
      refine ⟨ofBigEndian s / divisor, Nat.div_lt_of_lt_mul hlt, ?_⟩
      rw [Nat.div_add_mod, bigEndian_ofBigEndian]
    · rintro ⟨q, hq, rfl⟩
      refine ⟨bigEndian_length _ _, ?_⟩
      rw [hread q hq, Nat.mul_add_mod, Nat.mod_eq_of_lt hlow]
  have hinj : Set.InjOn (fun q => bigEndian n (divisor * q + low)) (Finset.range count) := by
    intro q hq q' hq' heq
    have hsame := congrArg ofBigEndian heq
    simp only [Finset.coe_range, Set.mem_Iio] at hq hq'
    rw [hread q hq, hread q' hq'] at hsame
    exact Nat.eq_of_mul_eq_mul_left hpos (Nat.add_right_cancel hsame)
  rw [himage, hinj.ncard_image, Set.ncard_coe_finset, Finset.card_range]

namespace Prefix

variable {p : Prefix} {drawn : Bytes} {key : Key}

/-- The octets that are drawn are those from the one on that holds the first free bit. -/
theorem freeOctets_of_lt (h : p.length < 160) : p.freeOctets = 20 - p.length / 8 :=
  if_neg (Nat.ne_of_lt h)

/-- **The free bits are drawn.** What has been drawn stands behind as many octets as the fixed bits
fill. -/
theorem bit_fill_of_le (hlength : drawn.length = p.freeOctets) {i : ℕ} (hfree : p.length ≤ i)
    (hi : i < 160) : (p.fill drawn).bit i = bitAt drawn (i - 8 * (p.length / 8)) := by
  have hoctets := freeOctets_of_lt (Nat.lt_of_le_of_lt hfree hi)
  have hlow : 159 - i < 160 - p.length := by omega
  have hplace : 159 - i = 8 * drawn.length - 1 - (i - 8 * (p.length / 8)) := by omega
  have hlast := Nat.mod_lt (ofBigEndian drawn) (Nat.two_pow_pos (160 - p.length))
  rw [Key.bit_eq_testBit _ hi, toNat_fill, Nat.testBit_two_pow_mul_add _ hlast, if_pos hlow,
    Nat.testBit_mod_two_pow, decide_eq_true hlow, Bool.true_and, hplace,
    testBit_ofBigEndian _ (by omega)]

/-- What is drawn fills a key exactly if it ends in the free bits of the key. -/
theorem fill_eq_iff (h : p.contains key = true) :
    p.fill drawn = key ↔
      ofBigEndian drawn % 2 ^ (160 - p.length) = key.bits.toNat % 2 ^ (160 - p.length) := by
  have hstem : key.bits.toNat / 2 ^ (160 - p.length) = p.stem := beq_iff_eq.mp h
  have hkey := Nat.div_add_mod key.bits.toNat (2 ^ (160 - p.length))
  have hfill := p.toNat_fill drawn
  rw [hstem] at hkey
  constructor
  · rintro rfl
    omega
  · intro hsame
    have hbits : (p.fill drawn).bits = key.bits := BitVec.eq_of_toNat_eq (by omega)
    cases key
    exact congrArg Key.mk hbits

/-- **Every key of a region is drawn equally often.** What is drawn holds as many bits more than are
free as there are fixed bits in the first octet of it. -/
theorem ncard_draws (h : p.contains key = true) :
    {drawn : Bytes | drawn.length = p.freeOctets ∧ p.fill drawn = key}.ncard =
      2 ^ (p.length % 8) := by
  have hspace : 256 ^ p.freeOctets = 2 ^ (p.length % 8) * 2 ^ (160 - p.length) := by
    have hle := p.length_le
    rw [← Nat.pow_add, show (256 : ℕ) = 2 ^ 8 from rfl, ← Nat.pow_mul]
    congr 1
    rw [freeOctets, keyLength]
    split <;> omega
  simp only [fill_eq_iff h]
  exact ncard_ofBigEndian_mod hspace (Nat.mod_lt _ (Nat.two_pow_pos _))

end Prefix

/-- **What a region holds and what is drawn from it, bit by bit.** The region of the first `length`
bits of a key, all 160 at most, holds the keys that agree with this one in these bits; they are the
ones that share at least so many leading bits with it, and the ones that make the same region. A key
that is drawn agrees with it in these bits and has each later one from the octets drawn, which stand
in their own places: behind as many octets of the key as are fixed altogether. Each key of the region
comes of equally many draws, and no other key of any. -/
theorem regions_told_and_drawn_by_bits (a : Key) (length : ℕ) :
    let p := a.leading length
    let fixed := min length 160
    (∀ x, (p.contains x = true ↔ ∀ i < fixed, x.bit i = a.bit i) ∧
      (p.contains x = true ↔ fixed ≤ x.sharedBits a) ∧
      (p.contains x = true ↔ x.leading length = p)) ∧
    (∀ stream,
      let drawn := (stream.take p.freeOctets).1
      let key := (p.sample stream).1
      (∀ i < fixed, key.bit i = a.bit i) ∧
      ∀ i, fixed ≤ i → i < 160 →
        bitAt key.toBytes i = bitAt (a.toBytes.take (fixed / 8) ++ drawn) i) ∧
    ∀ x state, {drawn : Bytes | drawn.length = p.freeOctets ∧ (p.sample ⟨drawn, state⟩).1 = x}.ncard =
      if p.contains x then 2 ^ (fixed % 8) else 0 := by
  intro p fixed
  have holds : ∀ x, p.contains x = true ↔ ∀ i < fixed, x.bit i = a.bit i :=
    fun x => Prefix.contains_leading_iff
  refine ⟨fun x => ⟨holds x, ?_, ?_⟩, fun stream => ?_, fun x state => ?_⟩
  · exact (holds x).trans (Key.le_sharedBits_iff (Nat.min_le_right length 160)).symm
  · refine beq_iff_eq.trans ⟨fun hstem => ?_, fun heq => congrArg Prefix.stem heq⟩
    exact Prefix.mk.injEq .. ▸ ⟨rfl, hstem⟩
  · intro drawn key
    refine ⟨(holds key).mp (p.contains_fill drawn), fun i hfree hi => ?_⟩
    have hfront : (a.toBytes.take (fixed / 8)).length = fixed / 8 := by
      rw [List.length_take, Key.toBytes, bigEndian_length]
      exact Nat.min_eq_left (by rw [keyLength]; omega)
    rw [Key.bitAt_toBytes _ hi, bitAt_append, hfront, if_neg (by omega)]
    exact Prefix.bit_fill_of_le (ByteStream.take_length _ _) hfree hi
  · have hdraw : ∀ drawn : Bytes, drawn.length = p.freeOctets →
        (p.sample ⟨drawn, state⟩).1 = p.fill drawn := by
      intro drawn hlength
      rw [Prefix.sample, ← hlength]
      dsimp only
      rw [ByteStream.fst_take_given]
    have hdraws : {drawn : Bytes | drawn.length = p.freeOctets ∧ (p.sample ⟨drawn, state⟩).1 = x} =
        {drawn : Bytes | drawn.length = p.freeOctets ∧ p.fill drawn = x} :=
      Set.ext fun drawn => and_congr_right fun hlength => by rw [hdraw drawn hlength]
    rw [hdraws]
    split
    · next hx => exact Prefix.ncard_draws hx
    · next hx =>
        have hnone : {drawn : Bytes | drawn.length = p.freeOctets ∧ p.fill drawn = x} = ∅ := by
          refine Set.eq_empty_iff_forall_notMem.mpr ?_
          rintro drawn ⟨-, rfl⟩
          exact hx (p.contains_fill drawn)
        rw [hnone, Set.ncard_empty]

/-- Twelve bits are fixed: nineteen octets are drawn, and of the first of them four bits are ignored,
so that sixteen draws give the same key. -/
theorem region_of_twelve_bits :
    let a : Key := ⟨BitVec.allOnes 160⟩
    let p := a.leading 12
    let stream : ByteStream := ⟨List.replicate 19 0x5a, 0⟩
    let drawn := (stream.take p.freeOctets).1
    let key := (p.sample stream).1
    (p.freeOctets = 19 ∧ key.toBytes = 0xff :: 0xfa :: List.replicate 18 0x5a) ∧
      key.bit 11 = a.bit 11 ∧
      bitAt key.toBytes 12 = bitAt (a.toBytes.take (min 12 160 / 8) ++ drawn) 12 ∧
      {drawn : Bytes | drawn.length = p.freeOctets ∧ (p.sample ⟨drawn, 0⟩).1 = key}.ncard =
        2 ^ (min 12 160 % 8) := by
  intro a p stream drawn key
  have holds : p.contains key = true := by decide +kernel
  have law := regions_told_and_drawn_by_bits a 12
  obtain ⟨fixed, free⟩ := law.2.1 stream
  refine ⟨⟨by decide, by decide +kernel⟩, fixed 11 (by decide), ?_, ?_⟩
  · exact free 12 (by decide) (by decide)
  · exact (law.2.2 key 0).trans (if_pos holds)

end Mainline
