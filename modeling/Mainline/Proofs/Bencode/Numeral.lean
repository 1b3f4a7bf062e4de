import Mathlib.Data.List.Basic
import Mathlib.Data.List.Induction
import Mainline.Bencode.Decode

/-!
# Texts of numbers

Integers are written without leading zeros and with no sign but a minus, and lengths are written as
numbers are. More than that is read: a length may have leading zeros, and any digits behind a plus
sign are an integer, because leading zeros are looked for in front of a text and behind a minus sign
only. So the texts of integers that are read are the canonical ones (`Canonical`) and those with a
plus sign (`PlusSigned`), and no others.

## Main results

* `canonical_iff`: the canonical text of an integer is the one that is written for it.
* `parseInteger?_eq_some_iff`: the texts of integers that are read.
* `parseLength?_eq_some_iff`: the texts of lengths that are read.
-/

namespace Mainline.Bencode

/-! ### Digits -/

/-- One or more ASCII digits and the number they denote. -/
structure Digits (digits : Bytes) (n : ℕ) : Prop where
  ne_nil : digits ≠ []
  isDigit : ∀ d ∈ digits, Decimal.isDigit d = true
  value_eq : Decimal.value digits = n

theorem ne_of_isDigit {d octet : UInt8} (hd : Decimal.isDigit d = true)
    (h : Decimal.isDigit octet = false) : d ≠ octet := by
  rintro rfl
  rw [hd] at h
  cases h

theorem isDigit_iff {d : UInt8} :
    Decimal.isDigit d = true ↔ 0x30 ≤ d.toNat ∧ d.toNat ≤ 0x39 := by
  simp [Decimal.isDigit, UInt8.le_iff_toNat_le]

/-- A digit is the one that is written for its value. -/
theorem digit_digitValue {d : UInt8} (h : Decimal.isDigit d = true) :
    Decimal.digit (Decimal.digitValue d) = d := by
  have hrange := isDigit_iff.mp h
  have hsum : 0x30 + (d.toNat - 0x30) = d.toNat := by omega
  rw [Decimal.digit, Decimal.digitValue, hsum, UInt8.ofNat_toNat]

theorem digitValue_pos {d : UInt8} (h : Decimal.isDigit d = true) (hne : d ≠ 0x30) :
    0 < Decimal.digitValue d := by
  have hrange := isDigit_iff.mp h
  have hne : d.toNat ≠ 0x30 := fun heq => hne (UInt8.toNat_inj.mp heq)
  rw [Decimal.digitValue]
  omega

theorem Digits.notMem {digits : Bytes} {n : ℕ} (h : Digits digits n) {octet : UInt8}
    (hoctet : Decimal.isDigit octet = false) : octet ∉ digits :=
  fun hmem => ne_of_isDigit (h.isDigit octet hmem) hoctet rfl

theorem Digits.exists_cons {digits : Bytes} {n : ℕ} (h : Digits digits n) :
    ∃ d tail, digits = d :: tail ∧ Decimal.isDigit d = true := by
  obtain ⟨d, tail, rfl⟩ := List.exists_cons_of_ne_nil h.ne_nil
  exact ⟨d, tail, rfl, h.isDigit d List.mem_cons_self⟩

/-- What is left of digits without the last of them is digits, unless nothing is. -/
theorem Digits.front {front : Bytes} {last : UInt8} {n : ℕ} (h : Digits (front ++ [last]) n)
    (hne : front ≠ []) : Digits front (Decimal.value front) :=
  ⟨hne, fun d hd => h.isDigit d (List.mem_append_left _ hd), rfl⟩

/-- A number without a leading zero is positive. -/
theorem Digits.pos {digits : Bytes} {n : ℕ} (h : Digits digits n)
    (noLeadingZero : digits.head? ≠ some 0x30) : 0 < n := by
  induction digits using List.reverseRecOn generalizing n with
  | nil => exact absurd rfl h.ne_nil
  | append_singleton front last ih =>
      rw [← h.value_eq, Decimal.value_concat]
      by_cases hfront : front = []
      · subst hfront
        have hlast := digitValue_pos (h.isDigit last List.mem_cons_self) fun heq =>
          noLeadingZero (congrArg some heq)
        omega
      · rw [List.head?_append_of_ne_nil _ hfront] at noLeadingZero
        have hpos := ih (h.front hfront) noLeadingZero
        omega

/-- Digits without a leading zero are the text of the number that they denote. -/
theorem Digits.eq_ofNat {digits : Bytes} {n : ℕ} (h : Digits digits n)
    (noLeadingZero : digits.head? = some 0x30 → digits = [0x30]) : digits = Decimal.ofNat n := by
  induction digits using List.reverseRecOn generalizing n with
  | nil => exact absurd rfl h.ne_nil
  | append_singleton front last ih =>
      have hlast := h.isDigit last (List.mem_append_right _ List.mem_cons_self)
      have hlt : Decimal.digitValue last < 10 := by
        have hrange := isDigit_iff.mp hlast
        rw [Decimal.digitValue]
        omega
      rw [← h.value_eq, Decimal.value_concat]
      by_cases hfront : front = []
      · subst hfront
        have hvalue : Decimal.value [] * 10 + Decimal.digitValue last = Decimal.digitValue last :=
          Nat.zero_add _
        rw [hvalue, Decimal.ofNat, if_pos hlt, digit_digitValue hlast, List.nil_append]
      · have hhead : front.head? ≠ some 0x30 := by
          intro hzero
          rw [← List.head?_append_of_ne_nil front hfront] at hzero
          have hlength := congrArg List.length (noLeadingZero hzero)
          have hpos := List.length_pos_of_ne_nil hfront
          rw [List.length_append, List.length_singleton, List.length_singleton] at hlength
          omega
        have hpos := (h.front hfront).pos hhead
        have heq := ih (h.front hfront) fun hzero => absurd hzero hhead
        have hdiv : (Decimal.value front * 10 + Decimal.digitValue last) / 10 =
            Decimal.value front := by
          omega
        have hmod : (Decimal.value front * 10 + Decimal.digitValue last) % 10 =
            Decimal.digitValue last := by
          omega
        rw [Decimal.ofNat, if_neg (by omega), hdiv, hmod, ← heq, digit_digitValue hlast]

theorem toNat?_eq_some_iff {digits : Bytes} {n : ℕ} :
    Decimal.toNat? digits = some n ↔ Digits digits n := by
  rw [Decimal.toNat?]
  constructor
  · intro h
    split at h
    · next hdigits => exact ⟨hdigits.1, List.all_eq_true.mp hdigits.2, Option.some.inj h⟩
    · cases h
  · rintro ⟨hne, hall, rfl⟩
    rw [if_pos ⟨hne, List.all_eq_true.mpr hall⟩]

/-- The text of a number is made of digits that denote it. -/
theorem digits_ofNat (n : ℕ) : Digits (Decimal.ofNat n) n :=
  toNat?_eq_some_iff.mp (Decimal.toNat?_ofNat n)

/-- The text of a number has no leading zero. -/
theorem head?_ofNat_eq_zero_iff (n : ℕ) : (Decimal.ofNat n).head? = some 0x30 ↔ n = 0 := by
  fun_induction Decimal.ofNat n with
  | case1 n h =>
      have hdigit : ∀ m : Fin 10, Decimal.digit m = 0x30 ↔ (m : ℕ) = 0 := by decide
      simpa using hdigit ⟨n, h⟩
  | case2 n h ih =>
      rw [List.head?_append, Option.or_of_isSome]
      · rw [ih]
        omega
      · rw [List.isSome_head?]
        simpa using Decimal.ofNat_ne_nil (n / 10)

/-! ### Integers -/

/-- The **canonical** texts of integers: digits without a leading zero, unless zero is all there
is, behind a minus sign if the integer is negative. -/
inductive Canonical : Bytes → Int64 → Prop
  | unsigned {digits : Bytes} {m : ℕ} {n : Int64} (denotes : Digits digits m)
      (noLeadingZero : digits.head? = some 0x30 → digits = [0x30]) (value : n.toInt = m) :
      Canonical digits n
  | negative {digits : Bytes} {m : ℕ} {n : Int64} (denotes : Digits digits m)
      (noLeadingZero : digits.head? ≠ some 0x30) (value : n.toInt = -m) :
      Canonical (0x2d :: digits) n

/-- The texts of integers with a **plus sign** in front, leading zeros or not. -/
inductive PlusSigned : Bytes → Int64 → Prop
  | intro {digits : Bytes} {m : ℕ} {n : Int64} (denotes : Digits digits m) (value : n.toInt = m) :
      PlusSigned (0x2b :: digits) n

/-- **The canonical text** of an integer is the one that is written for it. -/
theorem canonical_iff {text : Bytes} {n : Int64} :
    Canonical text n ↔ text = Decimal.ofInt n.toInt := by
  rw [Decimal.ofInt]
  constructor
  · rintro (⟨denotes, noLeadingZero, value⟩ | ⟨denotes, noLeadingZero, value⟩)
    · rw [if_neg (by omega), value, Int.natAbs_natCast]
      exact denotes.eq_ofNat noLeadingZero
    · have hpos := denotes.pos noLeadingZero
      rw [if_pos (by omega), value, Int.natAbs_neg, Int.natAbs_natCast]
      rw [← denotes.eq_ofNat fun hzero => absurd hzero noLeadingZero]
  · rintro rfl
    split
    · next hneg =>
        refine .negative (digits_ofNat _) (fun hzero => ?_) (by omega)
        rw [head?_ofNat_eq_zero_iff] at hzero
        omega
    · refine .unsigned (digits_ofNat _) (fun hzero => ?_) (by omega)
      rw [head?_ofNat_eq_zero_iff] at hzero
      rw [hzero]
      decide +kernel

theorem int64?_eq_some_iff {m : Int} {n : Int64} : int64? m = some n ↔ n.toInt = m := by
  rw [int64?]
  constructor
  · intro h
    split at h
    · next hrange =>
        have hmax : Int64.maxValue.toInt = 2 ^ 63 - 1 := by decide
        rw [← Option.some.inj h]
        exact Int64.toInt_ofInt_of_le hrange.1 (by omega)
    · cases h
  · rintro rfl
    rw [if_pos ⟨n.minValue_le_toInt, n.toInt_le⟩, Int64.ofInt_toInt]

/-- The text of a number is plain. -/
theorem isPlainInteger_ofInt (n : Int) : isPlainInteger (Decimal.ofInt n) = true := by
  obtain ⟨d, s, hs, hd⟩ := Decimal.head?_ofNat n.natAbs
  have hminus : d ≠ 0x2d := ne_of_isDigit hd rfl
  have hzero : d = 0x30 ↔ n.natAbs = 0 := by
    rw [← head?_ofNat_eq_zero_iff, hs, List.head?_cons, Option.some.injEq]
  rw [Decimal.ofInt]
  split
  · next hneg =>
      have hd : d ≠ 0x30 := by
        rw [Ne, hzero]
        omega
      rw [hs, isPlainInteger] <;> simp [hd]
  · by_cases hn : n.natAbs = 0
    · rw [hn]
      decide +kernel
    · have hd : d ≠ 0x30 := by rwa [Ne, hzero]
      rw [hs, isPlainInteger] <;> simp [hd, hminus]

/-- An integer of 64 bits reads back from its text. -/
theorem parseInteger?_ofInt (n : Int64) : parseInteger? (Decimal.ofInt n.toInt) = some n := by
  rw [parseInteger?, if_pos (isPlainInteger_ofInt _), Decimal.toInt?_ofInt, Option.bind_some,
    int64?, if_pos ⟨n.minValue_le_toInt, n.toInt_le⟩, Int64.ofInt_toInt]

/-- The texts of integers that are read. -/
def Readable (text : Bytes) (n : Int64) : Prop :=
  Canonical text n ∨ PlusSigned text n

/-- **Exactly these texts are read as integers.** A plus sign is neither a minus sign nor a zero, so
the digits behind it are not looked at before they are read. -/
theorem parseInteger?_eq_some_iff {text : Bytes} {n : Int64} :
    parseInteger? text = some n ↔ Readable text n := by
  constructor
  · intro h
    rw [parseInteger?] at h
    split at h
    · next hplain =>
        obtain ⟨m, hm, hn⟩ := Option.bind_eq_some_iff.mp h
        have hvalue := int64?_eq_some_iff.mp hn
        rw [Decimal.toInt?.eq_def] at hm
        split at hm
        · next digits =>
            obtain ⟨k, hk, rfl⟩ := Option.map_eq_some_iff.mp hm
            refine .inl (.negative (toNat?_eq_some_iff.mp hk) ?_ hvalue)
            intro hzero
            obtain ⟨tail, rfl⟩ := List.head?_eq_some_iff.mp hzero
            cases hplain
        · obtain ⟨k, hk, rfl⟩ := Option.map_eq_some_iff.mp hm
          exact .inr (.intro (toNat?_eq_some_iff.mp hk) hvalue)
        · obtain ⟨k, hk, rfl⟩ := Option.map_eq_some_iff.mp hm
          refine .inl (.unsigned (toNat?_eq_some_iff.mp hk) ?_ hvalue)
          intro hzero
          obtain ⟨tail, rfl⟩ := List.head?_eq_some_iff.mp hzero
          cases tail with
          | nil => rfl
          | cons => cases hplain
    · cases h
  · rintro (hcanonical | ⟨denotes, value⟩)
    · rw [canonical_iff.mp hcanonical, parseInteger?_ofInt]
    · next digits m =>
        have hplain : isPlainInteger (0x2b :: digits) = true := rfl
        rw [parseInteger?, if_pos hplain, Decimal.toInt?, toNat?_eq_some_iff.mpr denotes]
        exact int64?_eq_some_iff.mpr value

/-- The octet that ends an integer is not within its text. -/
theorem Readable.notMem {text : Bytes} {n : Int64} (h : Readable text n) : (0x65 : UInt8) ∉ text := by
  rcases h with (⟨denotes, -, -⟩ | ⟨denotes, -, -⟩) | ⟨denotes, -⟩
  · exact denotes.notMem rfl
  · exact List.not_mem_cons_of_ne_of_not_mem (by decide) (denotes.notMem rfl)
  · exact List.not_mem_cons_of_ne_of_not_mem (by decide) (denotes.notMem rfl)

/-! ### Lengths -/

theorem parseLength?_eq_some_iff {digits : Bytes} {n : ℕ} :
    parseLength? digits = some n ↔ Digits digits n ∧ n < UInt64.size := by
  rw [parseLength?, Option.filter_eq_some_iff, toNat?_eq_some_iff, decide_eq_true_iff]

end Mainline.Bencode
