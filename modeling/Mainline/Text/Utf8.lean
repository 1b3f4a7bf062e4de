import Mainline.Bytes

/-!
# UTF-8

Texts inside messages are UTF-8, but nothing keeps a peer from sending other octets. Reading comes
in two strengths: `decode?` accepts well-formed UTF-8 only, `decodeLossy` accepts everything and
puts U+FFFD in the place of each maximal ill-formed stretch, that is, of the longest initial part
of a well-formed sequence, or of a single octet that starts none.
-/

namespace Mainline.Utf8

/-- A text in UTF-8. -/
def encode (text : String) : Bytes :=
  text.toList.flatMap String.utf8EncodeChar

/-- The form of a well-formed sequence, as its first octet fixes it: the bits that octet
contributes and the range that each following octet has to lie in. `none` for an octet that starts
no sequence. -/
def shape? (first : UInt8) : Option (Nat × List (UInt8 × UInt8)) :=
  let n := first.toNat
  if n ≤ 0x7f then some (n, [])
  else if n < 0xc2 then none
  else if n ≤ 0xdf then some (n - 0xc0, [(0x80, 0xbf)])
  else if n = 0xe0 then some (0, [(0xa0, 0xbf), (0x80, 0xbf)])
  else if n = 0xed then some (0xd, [(0x80, 0x9f), (0x80, 0xbf)])
  else if n ≤ 0xef then some (n - 0xe0, [(0x80, 0xbf), (0x80, 0xbf)])
  else if n = 0xf0 then some (0, [(0x90, 0xbf), (0x80, 0xbf), (0x80, 0xbf)])
  else if n ≤ 0xf3 then some (n - 0xf0, [(0x80, 0xbf), (0x80, 0xbf), (0x80, 0xbf)])
  else if n = 0xf4 then some (4, [(0x80, 0x8f), (0x80, 0xbf), (0x80, 0xbf)])
  else none

/-- Reads the octets after the first, collecting six bits of each: the code point if all are there,
`none` if one is missing or out of range, and in both cases what is left to read. -/
def continuation (bits : Nat) : List (UInt8 × UInt8) → Bytes → Option Nat × Bytes
  | [], s => (some bits, s)
  | _ :: _, [] => (none, [])
  | (low, high) :: ranges, octet :: s =>
    if low ≤ octet ∧ octet ≤ high then
      continuation (bits * 64 + octet.toNat % 64) ranges s
    else
      (none, octet :: s)

/-- Reading further octets never lengthens what is left. -/
theorem continuation_length_le (bits : Nat) (ranges : List (UInt8 × UInt8)) (s : Bytes) :
    (continuation bits ranges s).2.length ≤ s.length := by
  induction ranges generalizing bits s with
  | nil => simp [continuation]
  | cons range ranges ih =>
    cases s with
    | nil => simp [continuation]
    | cons octet s =>
      simp only [continuation]
      split
      · exact Nat.le_succ_of_le (ih _ s)
      · simp

/-- The character at the front of a non-empty string, `none` standing for an ill-formed stretch,
and what is left behind it. -/
def next (first : UInt8) (s : Bytes) : Option Char × Bytes :=
  match shape? first with
  | none => (none, s)
  | some (bits, ranges) =>
    let (code, rest) := continuation bits ranges s
    (code.map Char.ofNat, rest)

theorem next_length_le (first : UInt8) (s : Bytes) : (next first s).2.length ≤ s.length := by
  unfold next
  split
  · simp
  · exact continuation_length_le ..

/-- All characters in turn, `none` for each ill-formed stretch. -/
def characters : Bytes → List (Option Char)
  | [] => []
  | first :: s => (next first s).1 :: characters (next first s).2
  termination_by s => s.length
  decreasing_by
    have := next_length_le first s
    simp only [List.length_cons]; omega

/-- Reads any octets, with U+FFFD for each ill-formed stretch. -/
def decodeLossy (s : Bytes) : String :=
  String.ofList ((characters s).map (·.getD (Char.ofNat 0xfffd)))

/-- Reads well-formed UTF-8 only. -/
def decode? (s : Bytes) : Option String :=
  ((characters s).mapM id).map String.ofList

end Mainline.Utf8
