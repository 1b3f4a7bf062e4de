import Mathlib.Data.Nat.Bitwise
import Mathlib.Order.Bounds.Defs
import Mainline.Lookup.Search
import Mainline.Proofs.Key.Drawing

/-!
# The metric of the key space

Which of two keys is nearer to a target is told in two ways. Lookups, and whoever sorts members,
compare distances, octet by octet from the most significant one on, and lookups file contacts under
them. The routing table counts the leading bits that two keys share. Read as numbers, distances are
those of a metric in which no two keys are equally far from a target. Shared bits tell the same
metric more coarsely: whoever is nearer as a number never shares fewer bits.

## Main results

* `ofBigEndian_lt_iff`: octets are compared like the numbers that they spell.
* `Key.toBytes_distance`, `Distance.toBytes_lt_iff`: distances octet by octet.
* `Key.distance_triangle`: the triangle inequality.
* `Key.min_sharedBits_le`, `Key.sharedBits_eq_min`: of the numbers of bits that three keys share,
  the two least are equal.
* `Distance.leadingZeros_le_of_le`: a smaller distance has no fewer leading zeros.
* `fileByDistance_eq`: contacts filed under their distances are filed under their ids.
* `keys_lie_in_xor_metric`: the laws together.
-/

namespace Mainline

/-! ### Octets and numbers -/

/-- The first octet counts most. -/
theorem ofBigEndian_cons (octet : UInt8) (s : Bytes) :
    ofBigEndian (octet :: s) = octet.toNat * 256 ^ s.length + ofBigEndian s := by
  induction s using List.reverseRecOn with
  | nil => simp [ofBigEndian]
  | append_singleton s last ih =>
      have hlength : (s ++ [last]).length = s.length + 1 := by simp
      rw [← List.cons_append, ofBigEndian_concat, ih, ofBigEndian_concat, hlength, Nat.pow_succ,
        Nat.add_mul, Nat.mul_assoc, Nat.add_assoc]

/-- A first digit decides between two numbers, and if it is the same, what comes behind it does. -/
theorem mul_add_lt_mul_add_iff {base x y low low' : ℕ} (hlow : low < base) (hlow' : low' < base) :
    x * base + low < y * base + low' ↔ x < y ∨ x = y ∧ low < low' := by
  have hfirst : ∀ {x y : ℕ}, x < y → x * base + base ≤ y * base := by
    intro x y h
    rw [← Nat.succ_mul]
    exact Nat.mul_le_mul_right base h
  obtain hlt | rfl | hgt := Nat.lt_trichotomy x y
  · have := hfirst hlt
    omega
  · omega
  · have := hfirst hgt
    omega

/-- **Octets are compared like the numbers that they spell**: the first octet in which two strings
of one length differ is the most significant one that does. -/
theorem ofBigEndian_lt_iff {s t : Bytes} (h : s.length = t.length) :
    ofBigEndian s < ofBigEndian t ↔ s < t := by
  induction s generalizing t with
  | nil =>
      obtain rfl := List.length_eq_zero_iff.mp h.symm
      exact iff_of_false (Nat.lt_irrefl 0) (List.lt_irrefl [])
  | cons x s ih =>
      cases t with
      | nil => cases h
      | cons y t =>
          have hlength : s.length = t.length := Nat.succ.inj h
          have hs : ofBigEndian s < 256 ^ t.length := hlength ▸ ofBigEndian_lt s
          rw [List.cons_lt_cons_iff, ← ih hlength, ofBigEndian_cons, ofBigEndian_cons, hlength,
            mul_add_lt_mul_add_iff hs (ofBigEndian_lt t), UInt8.lt_iff_toNat_lt, UInt8.toNat_inj]

/-- The octets of an exclusive or are the exclusive ors of the octets. -/
theorem bigEndian_xor (width m n : ℕ) :
    bigEndian width (m ^^^ n) =
      List.zipWith (· ^^^ ·) (bigEndian width m) (bigEndian width n) := by
  induction width generalizing m n with
  | zero => rfl
  | succ width ih =>
      have hhigh : (m ^^^ n) / 256 = m / 256 ^^^ n / 256 := Nat.xor_div_two_pow (n := 8)
      have hlength : (bigEndian width (m / 256)).length = (bigEndian width (n / 256)).length := by
        rw [bigEndian_length, bigEndian_length]
      rw [bigEndian, bigEndian, bigEndian, hhigh, ih, UInt8.ofNat_xor, List.zipWith_append hlength]
      rfl

/-- An exclusive or is a sum without carries. -/
theorem xor_le_add (m n : ℕ) : m ^^^ n ≤ m + n := by
  -- the last bit is that of the sum, and halving both numbers takes it off
  induction m using Nat.strong_induction_on generalizing n with
  | _ m ih =>
      obtain rfl | hpos := Nat.eq_zero_or_pos m
      · rw [Nat.zero_xor, Nat.zero_add]
      · have hhalf : (m ^^^ n) / 2 = m / 2 ^^^ n / 2 := Nat.xor_div_two
        have hlast : (m ^^^ n) % 2 = (m + n) % 2 := Nat.xor_mod_two_eq
        have hle := ih (m / 2) (Nat.div_lt_self hpos (by decide)) (n / 2)
        omega

/-! ### Distances -/

namespace Distance

variable {d d' : Distance}

/-- The twenty octets of a distance. -/
def toBytes (d : Distance) : Bytes :=
  bigEndian keyLength d.bits.toNat

/-- The number that the octets of a distance spell, the most significant one first. -/
def magnitude (d : Distance) : ℕ :=
  ofBigEndian d.toBytes

theorem magnitude_eq (d : Distance) : d.magnitude = d.bits.toNat :=
  ofBigEndian_bits d.bits

theorem magnitude_lt_iff : d.magnitude < d'.magnitude ↔ d < d' := by
  rw [magnitude_eq, magnitude_eq]
  rfl

theorem magnitude_le_iff : d.magnitude ≤ d'.magnitude ↔ d ≤ d' := by
  rw [magnitude_eq, magnitude_eq]
  rfl

theorem magnitude_eq_zero_iff : d.magnitude = 0 ↔ d.isZero = true := by
  rw [magnitude_eq, isZero, beq_iff_eq, ← BitVec.toNat_inj]
  rfl

/-- **Distances are compared octet by octet.** -/
theorem toBytes_lt_iff : d.toBytes < d'.toBytes ↔ d < d' := by
  rw [← magnitude_lt_iff, magnitude, magnitude, ofBigEndian_lt_iff]
  rw [toBytes, toBytes, bigEndian_length, bigEndian_length]

/-- A smaller distance has no fewer leading zeros. -/
theorem leadingZeros_le_of_le (h : d ≤ d') : d'.leadingZeros ≤ d.leadingZeros :=
  not_lt.mp (mt lt_of_leadingZeros_lt (not_lt.mpr h))

end Distance

namespace Key

variable {a b c : Key}

theorem isZero_distance_iff : (a.distance b).isZero = true ↔ a = b :=
  beq_iff_eq.trans distance_bits_eq_zero_iff

/-- The octets of a distance are the exclusive ors of those of the keys. -/
theorem toBytes_distance (a b : Key) :
    (a.distance b).toBytes = List.zipWith (· ^^^ ·) a.toBytes b.toBytes := by
  rw [Distance.toBytes, distance, BitVec.toNat_xor, bigEndian_xor, toBytes, toBytes]

/-- **The triangle inequality**: the way round a third key is no shorter. -/
theorem distance_triangle (a b c : Key) :
    (a.distance c).magnitude ≤ (a.distance b).magnitude + (b.distance c).magnitude := by
  have hround : (a.distance c).bits = (a.distance b).bits ^^^ (b.distance c).bits := by
    simp only [distance]
    rw [BitVec.xor_assoc, ← BitVec.xor_assoc b.bits, BitVec.xor_self, BitVec.zero_xor]
  rw [Distance.magnitude_eq, Distance.magnitude_eq, Distance.magnitude_eq, hround, BitVec.toNat_xor]
  exact xor_le_add _ _

/-! ### Shared bits -/

theorem sharedBits_comm (a b : Key) : a.sharedBits b = b.sharedBits a :=
  congrArg Distance.leadingZeros (distance_comm a b)

theorem sharedBits_le (a b : Key) : a.sharedBits b ≤ 160 :=
  Distance.leadingZeros_le _

/-- Only a key itself shares all bits. -/
theorem sharedBits_eq_iff_eq : a.sharedBits b = 160 ↔ a = b := by
  rw [← not_iff_not, ← Ne, ← Ne, ← sharedBits_lt_iff]
  exact (sharedBits_le a b).lt_iff_ne.symm

/-- **Shared bits are counted exactly**: two keys share the greatest number of leading bits in which
their octets agree. -/
theorem isGreatest_sharedBits (a b : Key) :
    IsGreatest {n | n ≤ 160 ∧ ∀ i < n, bitAt a.toBytes i = bitAt b.toBytes i} (a.sharedBits b) := by
  have hagree : ∀ n ≤ 160, (∀ i < n, bitAt a.toBytes i = bitAt b.toBytes i) ↔ AgreeUpTo n a b := by
    intro n hn
    refine forall₂_congr fun i hi => ?_
    have hbit : i < 160 := Nat.lt_of_lt_of_le hi hn
    rw [bitAt_toBytes a hbit, bitAt_toBytes b hbit]
  have hle := sharedBits_le a b
  refine ⟨⟨hle, (hagree _ hle).mpr ((le_sharedBits_iff hle).mp (Nat.le_refl _))⟩, ?_⟩
  rintro n ⟨hn, hbits⟩
  exact (le_sharedBits_iff hn).mpr ((hagree n hn).mp hbits)

/-- Keys that both agree with a third one agree with each other as far as the two do. -/
theorem min_sharedBits_le (a b c : Key) :
    min (a.sharedBits b) (b.sharedBits c) ≤ a.sharedBits c := by
  have hle : min (a.sharedBits b) (b.sharedBits c) ≤ 160 := min_le_of_left_le (sharedBits_le a b)
  have hab := (le_sharedBits_iff hle).mp (min_le_left (a.sharedBits b) (b.sharedBits c))
  have hbc := (le_sharedBits_iff hle).mp (min_le_right (a.sharedBits b) (b.sharedBits c))
  exact (le_sharedBits_iff hle).mpr fun i hi => (hab i hi).trans (hbc i hi)

/-- **The two least are equal** of the numbers of bits that three keys share. -/
theorem sharedBits_eq_min (h : a.sharedBits b ≠ b.sharedBits c) :
    a.sharedBits c = min (a.sharedBits b) (b.sharedBits c) := by
  -- each of the three numbers is no less than the lesser of the other two
  have hac := min_sharedBits_le a b c
  have hab := min_sharedBits_le a c b
  have hbc := min_sharedBits_le b a c
  rw [sharedBits_comm c b] at hab
  rw [sharedBits_comm b a] at hbc
  omega

end Key

/-! ### Filing under distances -/

section Filing

variable {target : Key} {contact : Contact} {replace : Bool} {cs : List Contact}

/-- Files a contact in a map from distances to contacts that is kept in the order of its keys. What
stands under the same distance is replaced or stays. -/
def fileByDistance (target : Key) (contact : Contact) (replace : Bool) :
    List Contact → List Contact
  | [] => [contact]
  | c :: cs =>
    match compare (contact.id.distance target) (c.id.distance target) with
    | .lt => contact :: c :: cs
    | .eq => (if replace then contact else c) :: cs
    | .gt => c :: fileByDistance target contact replace cs

/-- **To file by distance is to file by id**, since no two ids are equally far. -/
theorem fileByDistance_eq : fileByDistance target contact replace cs =
    insertNearest target contact replace cs := by
  induction cs with
  | nil => rfl
  | cons c cs ih =>
      rw [fileByDistance, insertNearest]
      obtain hlt | heq | hgt := lt_trichotomy (contact.id.distance target) (c.id.distance target)
      · have hne : c.id ≠ contact.id := fun hid => hlt.ne (hid ▸ rfl)
        rw [compare_lt_iff_lt.mpr hlt, if_neg hne, if_pos hlt]
      · rw [compare_eq_iff_eq.mpr heq, if_pos (Key.distance_left_inj.mp heq).symm]
      · have hne : c.id ≠ contact.id := fun hid => hgt.ne (hid ▸ rfl)
        rw [compare_gt_iff_gt.mpr hgt, if_neg hne, if_neg hgt.not_gt, ih]

/-- A contact under another id keeps its place. -/
theorem mem_insertNearest_of_ne {c : Contact} (hc : c ∈ cs) (hne : c.id ≠ contact.id) :
    c ∈ insertNearest target contact replace cs := by
  induction cs with
  | nil => cases hc
  | cons d cs ih =>
      rw [insertNearest]
      obtain rfl | hc := List.mem_cons.mp hc
      · rw [if_neg hne]
        split
        · exact List.mem_cons_of_mem _ List.mem_cons_self
        · exact List.mem_cons_self
      · split
        · exact List.mem_cons_of_mem _ hc
        · split
          · exact List.mem_cons_of_mem _ (List.mem_cons_of_mem _ hc)
          · exact List.mem_cons_of_mem _ (ih hc)

end Filing

/-- **The key space is a metric space, and shared bits tell its metric more coarsely.**

The distance of two keys is their exclusive or, octet by octet. Distances are ordered as the
unsigned numbers that their octets spell, and these are compared octet by octet. A key has the
distance zero from itself and from no other; the distance is the same both ways, and the way round a
third key is no shorter. From one target no two keys are equally far, so contacts filed under their
distances are filed under their ids, and none takes the place of one with another id.

The shared bits of two keys are the leading ones in which their octets agree, counted exactly, all
160 for a key and itself alone. Of the numbers of bits that three keys share, none is less than both
others, and if two differ, the third is the lesser of them. Who is no farther from a target shares
no fewer bits with it. -/
theorem keys_lie_in_xor_metric (a b c : Key) :
    ((a.distance b).toBytes = List.zipWith (· ^^^ ·) a.toBytes b.toBytes ∧
      ∀ d d' : Distance,
        (d < d' ↔ d.magnitude < d'.magnitude) ∧ (d ≤ d' ↔ d.magnitude ≤ d'.magnitude) ∧
        (d < d' ↔ d.toBytes < d'.toBytes)) ∧
    (((a.distance b).isZero = true ↔ a = b) ∧ ((a.distance b).magnitude = 0 ↔ a = b) ∧
      a.distance b = b.distance a ∧
      (a.distance c).magnitude ≤ (a.distance b).magnitude + (b.distance c).magnitude) ∧
    (Function.Injective (fun id : Key => id.distance c) ∧
      ∀ contact replace cs,
        fileByDistance c contact replace cs = insertNearest c contact replace cs ∧
        ∀ other ∈ cs, other.id ≠ contact.id → other ∈ fileByDistance c contact replace cs) ∧
    (IsGreatest {n | n ≤ 160 ∧ ∀ i < n, bitAt a.toBytes i = bitAt b.toBytes i} (a.sharedBits b) ∧
      (a.sharedBits b = 160 ↔ a = b) ∧
      min (a.sharedBits b) (b.sharedBits c) ≤ a.sharedBits c ∧
      (a.sharedBits b ≠ b.sharedBits c → a.sharedBits c = min (a.sharedBits b) (b.sharedBits c))) ∧
    (a.distance c ≤ b.distance c → b.sharedBits c ≤ a.sharedBits c) := by
  refine ⟨⟨Key.toBytes_distance a b, fun d d' => ?_⟩, ⟨Key.isZero_distance_iff, ?_,
    Key.distance_comm a b, Key.distance_triangle a b c⟩, ⟨?_, fun contact replace cs => ?_⟩,
    ⟨Key.isGreatest_sharedBits a b, Key.sharedBits_eq_iff_eq, Key.min_sharedBits_le a b c,
      Key.sharedBits_eq_min⟩, Distance.leadingZeros_le_of_le⟩
  · exact ⟨Distance.magnitude_lt_iff.symm, Distance.magnitude_le_iff.symm,
      Distance.toBytes_lt_iff.symm⟩
  · exact Distance.magnitude_eq_zero_iff.trans Key.isZero_distance_iff
  · exact fun x y hxy => Key.distance_left_inj.mp hxy
  · refine ⟨fileByDistance_eq, fun other hother hne => ?_⟩
    rw [fileByDistance_eq]
    exact mem_insertNearest_of_ne hother hne

/-- Two keys part at the first bit of the second octet, and a third one parts from both at the last
bit of the first. The nearer of the two shares with it as many bits as the other does, and filed
under its distance it takes the place of none. -/
theorem keys_part_at_octet_boundary :
    let a : Key := ⟨0⟩
    let b : Key := ⟨BitVec.twoPow 160 151⟩
    let c : Key := ⟨BitVec.twoPow 160 152⟩
    let nearer : Contact := ⟨a, default⟩
    let other : Contact := ⟨b, default⟩
    (a.sharedBits b = 8 ∧ b.sharedBits c = 7) ∧
      (a.sharedBits b ≠ b.sharedBits c ∧ a.sharedBits c = min (a.sharedBits b) (b.sharedBits c)) ∧
      (a.distance c ≤ b.distance c ∧ b.sharedBits c ≤ a.sharedBits c) ∧
      (other.id ≠ nearer.id ∧ other ∈ fileByDistance c nearer true [other]) := by
  intro a b c nearer other
  have hshared : a.sharedBits b = 8 ∧ b.sharedBits c = 7 := by decide +kernel
  have hne : a.sharedBits b ≠ b.sharedBits c := by decide +kernel
  have hle : a.distance c ≤ b.distance c := by decide +kernel
  have hid : other.id ≠ nearer.id := by decide +kernel
  obtain ⟨-, -, ⟨-, hfile⟩, ⟨-, -, -, hmin⟩, hnearer⟩ := keys_lie_in_xor_metric a b c
  have hkept := (hfile nearer true [other]).2 other (List.mem_singleton_self other) hid
  exact ⟨hshared, ⟨hne, hmin hne⟩, ⟨hle, hnearer hle⟩, ⟨hid, hkept⟩⟩

end Mainline
