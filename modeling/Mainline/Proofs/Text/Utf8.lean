import Mathlib.Data.Nat.Notation
import Mainline.Text.Utf8

/-!
# UTF-8 reads back what it writes

The form of a character is one sequence of one to four octets. This module reads each of the four
kinds back, whatever follows, and so every text: reading, even with replacement characters for what
is ill-formed, returns the text that was written.

## Main results

* `next_utf8EncodeChar`: a character reads back from the front of what was written.
* `decodeLossy_encode`: a text reads back.
-/

namespace Mainline.Utf8

/-! ### The shapes of sequences -/

theorem shape?_one {first : UInt8} (h : first.toNat ≤ 0x7f) :
    shape? first = some (first.toNat, []) := by
  simp [shape?, h]

theorem shape?_two {first : UInt8} (hlow : 0xc2 ≤ first.toNat) (hhigh : first.toNat ≤ 0xdf) :
    shape? first = some (first.toNat - 0xc0, [(0x80, 0xbf)]) := by
  rw [shape?, if_neg (by omega), if_neg (by omega), if_pos hhigh]

/-- In a sequence of three octets, the range of the second keeps out overlong forms and
surrogates. -/
theorem shape?_three {first : UInt8} (hlow : 0xe0 ≤ first.toNat) (hhigh : first.toNat ≤ 0xef) :
    shape? first = some (first.toNat - 0xe0,
      [(if first.toNat = 0xe0 then 0xa0 else 0x80, if first.toNat = 0xed then 0x9f else 0xbf),
        (0x80, 0xbf)]) := by
  rw [shape?, if_neg (by omega), if_neg (by omega), if_neg (by omega)]
  by_cases he0 : first.toNat = 0xe0
  · simp [he0]
  · by_cases hed : first.toNat = 0xed
    · simp [hed]
    · rw [if_neg he0, if_neg hed, if_pos hhigh, if_neg he0, if_neg hed]

/-- In a sequence of four octets, the range of the second keeps out overlong forms and what lies
behind the last character. -/
theorem shape?_four {first : UInt8} (hlow : 0xf0 ≤ first.toNat) (hhigh : first.toNat ≤ 0xf4) :
    shape? first = some (first.toNat - 0xf0,
      [(if first.toNat = 0xf0 then 0x90 else 0x80, if first.toNat = 0xf4 then 0x8f else 0xbf),
        (0x80, 0xbf), (0x80, 0xbf)]) := by
  rw [shape?, if_neg (by omega), if_neg (by omega), if_neg (by omega), if_neg (by omega),
    if_neg (by omega), if_neg (by omega)]
  by_cases hf0 : first.toNat = 0xf0
  · simp [hf0]
  · by_cases hf4 : first.toNat = 0xf4
    · simp [hf4]
    · rw [if_neg hf0, if_pos (by omega), if_neg hf0, if_neg hf4]

/-! ### Reading a sequence -/

theorem toNat_ofNat {m : ℕ} (h : m < 256) : (UInt8.ofNat m).toNat = m := by
  rw [UInt8.toNat_ofNat']
  exact Nat.mod_eq_of_lt h

/-- An octet in its range adds six bits. -/
theorem continuation_cons {low high : UInt8} {m : ℕ} (hlow : low.toNat ≤ m)
    (hhigh : m ≤ high.toNat) (bits : ℕ) (ranges : List (UInt8 × UInt8)) (s : Bytes) :
    continuation bits ((low, high) :: ranges) (UInt8.ofNat m :: s) =
      continuation (bits * 64 + m % 64) ranges s := by
  have hm : (UInt8.ofNat m).toNat = m := toNat_ofNat (Nat.lt_of_le_of_lt hhigh high.toNat_lt)
  have hrange : low ≤ UInt8.ofNat m ∧ UInt8.ofNat m ≤ high := by
    rw [UInt8.le_iff_toNat_le, UInt8.le_iff_toNat_le, hm]
    exact ⟨hlow, hhigh⟩
  rw [continuation, if_pos hrange, hm]

/-- So does an octet that only carries them. -/
theorem continuation_tail (bits m : ℕ) (ranges : List (UInt8 × UInt8)) (s : Bytes) :
    continuation bits ((0x80, 0xbf) :: ranges) (UInt8.ofNat (m % 0x40 + 0x80) :: s) =
      continuation (bits * 64 + m % 64) ranges s := by
  have hlow : (0x80 : UInt8).toNat ≤ m % 0x40 + 0x80 := Nat.le_add_left _ _
  have hhigh : m % 0x40 + 0x80 ≤ (0xbf : UInt8).toNat := by
    have hbf : (0xbf : UInt8).toNat = 0xbf := rfl
    omega
  rw [continuation_cons hlow hhigh]
  congr 2
  omega

theorem next_of_shape? {first : UInt8} {bits : ℕ} {ranges : List (UInt8 × UInt8)}
    {s rest : Bytes} {c : Char} (hshape : shape? first = some (bits, ranges))
    (hread : continuation bits ranges s = (some c.toNat, rest)) :
    next first s = (some c, rest) := by
  rw [next, hshape]
  simp only [hread, Option.map_some, Char.ofNat_toNat]

/-- **A character reads back from the front of what was written.** -/
theorem next_utf8EncodeChar (c : Char) (rest : Bytes) :
    ∃ first s, String.utf8EncodeChar c = first :: s ∧ next first (s ++ rest) = (some c, rest) := by
  have hvalid : c.toNat < 0xd800 ∨ 0xdfff < c.toNat ∧ c.toNat < 0x110000 := c.valid
  have hval : c.val.toNat = c.toNat := rfl
  generalize hn : c.toNat = n at hvalid
  unfold String.utf8EncodeChar
  rw [hval, hn]
  dsimp only
  split
  · next h1 =>
      have hfirst : (UInt8.ofNat n).toNat = n := toNat_ofNat (by omega)
      refine ⟨_, _, rfl, next_of_shape? (shape?_one (by omega)) ?_⟩
      rw [hfirst, hn, List.nil_append, continuation]
  · split
    · next h1 h2 =>
        have hfirst : (UInt8.ofNat (n / 64 % 0x20 + 0xc0)).toNat = n / 64 + 0xc0 := by
          rw [toNat_ofNat (by omega)]
          omega
        refine ⟨_, _, rfl, next_of_shape? (shape?_two (by omega) (by omega)) ?_⟩
        rw [hfirst, hn, List.cons_append, List.nil_append, continuation_tail, continuation]
        congr 2
        omega
    · split
      · next h1 h2 h3 =>
          have hfirst : (UInt8.ofNat (n / 4096 % 0x10 + 0xe0)).toNat = n / 4096 + 0xe0 := by
            rw [toNat_ofNat (by omega)]
            omega
          refine ⟨_, _, rfl, next_of_shape? (shape?_three (by omega) (by omega)) ?_⟩
          rw [hfirst, hn, List.cons_append, List.cons_append, List.nil_append, continuation_cons,
            continuation_tail, continuation]
          · congr 2
            omega
          · split
            · simp; omega
            · simp
          · split
            · simp; omega
            · simp; omega
      · next h1 h2 h3 =>
          have hfirst : (UInt8.ofNat (n / 262144 % 0x08 + 0xf0)).toNat = n / 262144 + 0xf0 := by
            rw [toNat_ofNat (by omega)]
            omega
          refine ⟨_, _, rfl, next_of_shape? (shape?_four (by omega) (by omega)) ?_⟩
          rw [hfirst, hn, List.cons_append, List.cons_append, List.cons_append, List.nil_append,
            continuation_cons, continuation_tail, continuation_tail, continuation]
          · congr 2
            omega
          · split
            · simp; omega
            · simp
          · split
            · simp; omega
            · simp; omega

/-- A character is read before the text that follows it. -/
theorem characters_utf8EncodeChar (c : Char) (s : Bytes) :
    characters (String.utf8EncodeChar c ++ s) = some c :: characters s := by
  obtain ⟨first, tail, hform, hnext⟩ := next_utf8EncodeChar c s
  rw [hform, List.cons_append, characters, hnext]

/-- All characters of a text are read. -/
theorem characters_flatMap (text : List Char) :
    characters (text.flatMap String.utf8EncodeChar) = text.map some := by
  induction text with
  | nil => rw [List.flatMap_nil, characters, List.map_nil]
  | cons c text ih => rw [List.flatMap_cons, characters_utf8EncodeChar, ih, List.map_cons]

/-- **A text reads back.** -/
theorem decodeLossy_encode (text : String) : decodeLossy (encode text) = text := by
  simp [decodeLossy, encode, characters_flatMap, Function.comp_def]

end Mainline.Utf8
