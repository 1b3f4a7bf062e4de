import Mainline.Bencode.Value
import Mainline.Text.Decimal
import Mainline.Text.Hex

/-!
# Reading bencode

A reader takes a value off the front of the octets it is given and returns what is left, which is
always shorter. Faults are reported by their offset in the whole input; since every reader sees a
final part of that input, the offset is the length of the whole less the length of what is left.

Reading is more liberal than writing. Lengths may have leading zeros, integers a leading `+` and
then leading zeros, and the keys of a dictionary may come in any order and repeat, the last one
winning. It is stricter in one respect: a value may lie in at most `maxDepth` containers.
-/

namespace Mainline.Bencode

/-- Why octets are not one bencode value. -/
inductive DecodeError where
  /-- The input ends within a value. -/
  | unexpectedEnd (offset : Nat)
  /-- What stands between the `i` at this offset and the next `e` is no integer of 64 bits. -/
  | invalidInteger (offset : Nat)
  /-- What stands between this offset and the next colon is no length below `2 ^ 64`. -/
  | invalidLength (offset : Nat)
  /-- No value, or no key, starts with this octet. -/
  | unexpectedByte (octet : UInt8) (offset : Nat)
  /-- The value ends at this offset, before the input does. -/
  | trailingData (offset : Nat)
  /-- A value lies in more than `maxDepth` containers. -/
  | nestingTooDeep
deriving DecidableEq, Repr

/-- The wording of each fault. -/
def DecodeError.message : DecodeError → String
  | unexpectedEnd offset => "unexpected end of input at offset " ++ toString offset
  | invalidInteger offset => "invalid integer at offset " ++ toString offset
  | invalidLength offset => "invalid string length at offset " ++ toString offset
  | unexpectedByte octet offset =>
    "unexpected byte 0x" ++ Hex.ofBytes [octet] ++ " at offset " ++ toString offset
  | trailingData offset => "trailing data after value at offset " ++ toString offset
  | nestingTooDeep => "nesting too deep"

/-- The greatest number of containers around a value that is read. -/
def maxDepth : Nat := 64

/-! ### Readers -/

/-- What is left of `s` once at least one octet has been read. -/
abbrev Rest (s : Bytes) := { rest : Bytes // rest.length < s.length }

/-- The outcome of reading something off the front of `s`. -/
abbrev Step (α : Type) (s : Bytes) := Except DecodeError (α × Rest s)

/-- Everything before the first `stop` and everything behind it. -/
def splitAt? (stop : UInt8) : Bytes → Option (Bytes × Bytes)
  | [] => none
  | octet :: s =>
    if octet = stop then some ([], s)
    else (splitAt? stop s).map fun (before, behind) => (octet :: before, behind)

theorem eq_append_of_splitAt? {stop : UInt8} {s before behind : Bytes}
    (h : splitAt? stop s = some (before, behind)) : s = before ++ stop :: behind := by
  induction s generalizing before behind with
  | nil => simp [splitAt?] at h
  | cons octet s ih =>
    simp only [splitAt?] at h
    split at h
    · next heq =>
      obtain ⟨rfl, rfl⟩ : [] = before ∧ s = behind := by simpa using h
      simp [heq]
    · obtain ⟨⟨before', behind'⟩, hsplit, heq⟩ := Option.map_eq_some_iff.mp h
      obtain ⟨rfl, rfl⟩ : octet :: before' = before ∧ behind' = behind := by simpa using heq
      simp [ih hsplit]

theorem length_lt_of_splitAt? {stop : UInt8} {s before behind : Bytes}
    (h : splitAt? stop s = some (before, behind)) : behind.length < s.length := by
  rw [eq_append_of_splitAt? h]
  simp; omega

theorem length_drop_lt_of_splitAt? {stop : UInt8} {s before behind : Bytes}
    (h : splitAt? stop s = some (before, behind)) (n : Nat) :
    (behind.drop n).length < s.length := by
  have hbehind := length_lt_of_splitAt? h
  rw [List.length_drop]
  omega

/-- Digits that may stand for an integer: at least one octet behind an optional minus sign, no
zero behind a minus sign and nothing behind a leading zero. What the octets are is not looked
at. -/
def isPlainInteger : Bytes → Bool
  | [] => false
  | [0x2d] => false
  | 0x2d :: 0x30 :: _ => false
  | 0x30 :: _ :: _ => false
  | _ => true

/-- The integer of 64 bits that has this value, if there is one. -/
def int64? (n : Int) : Option Int64 :=
  if Int64.minValue.toInt ≤ n ∧ n ≤ Int64.maxValue.toInt then some (Int64.ofInt n) else none

/-- The integer that the octets between `i` and `e` denote. -/
def parseInteger? (digits : Bytes) : Option Int64 :=
  if isPlainInteger digits then (Decimal.toInt? digits).bind int64? else none

/-- The length that the octets before a colon denote. -/
def parseLength? (digits : Bytes) : Option Nat :=
  (Decimal.toNat? digits).filter (· < UInt64.size)

/-- Reads what follows the `i` of an integer. -/
def readInteger (total : Nat) (s : Bytes) : Step Int64 s :=
  match h : splitAt? 0x65 s with
  | none => .error (.unexpectedEnd total)
  | some (digits, rest) =>
    match parseInteger? digits with
    | none => .error (.invalidInteger (total - (s.length + 1)))
    | some n => .ok (n, ⟨rest, length_lt_of_splitAt? h⟩)

/-- Reads a byte string from its length on. -/
def readBytes (total : Nat) (s : Bytes) : Step Bytes s :=
  match h : splitAt? 0x3a s with
  | none => .error (.unexpectedEnd total)
  | some (digits, rest) =>
    match parseLength? digits with
    | none => .error (.invalidLength (total - s.length))
    | some n =>
      if n ≤ rest.length then
        .ok (rest.take n, ⟨rest.drop n, length_drop_lt_of_splitAt? h n⟩)
      else
        .error (.unexpectedEnd total)

/-- Reads elements up to an `e`, and that. -/
def readUntilEnd {α : Type} (total : Nat) (element : (s : Bytes) → Step α s) (s : Bytes) :
    Step (List α) s :=
  match s with
  | [] => .error (.unexpectedEnd total)
  | octet :: rest =>
    if octet = 0x65 then
      .ok ([], ⟨rest, by simp⟩)
    else
      match element (octet :: rest) with
      | .error e => .error e
      | .ok (a, ⟨rest', h⟩) =>
        match readUntilEnd total element rest' with
        | .error e => .error e
        | .ok (as, ⟨rest'', h'⟩) => .ok (a :: as, ⟨rest'', Nat.lt_trans h' h⟩)
  termination_by s.length
  decreasing_by exact h

/-- Reads a key and its value. -/
def readEntry {α : Type} (total : Nat) (value : (s : Bytes) → Step α s) (s : Bytes) :
    Step (Bytes × α) s :=
  match s with
  | [] => .error (.unexpectedEnd total)
  | octet :: rest =>
    if Decimal.isDigit octet then
      match readBytes total (octet :: rest) with
      | .error e => .error e
      | .ok (key, ⟨rest', h⟩) =>
        match value rest' with
        | .error e => .error e
        | .ok (v, ⟨rest'', h'⟩) => .ok ((key, v), ⟨rest'', Nat.lt_trans h' h⟩)
    else
      .error (.unexpectedByte octet (total - (octet :: rest).length))

/-- Turns what was read behind the first octet of `s` into what was read from `s`. -/
def Step.behind {α β : Type} {octet : UInt8} {s : Bytes} (f : α → β) :
    Step α s → Step β (octet :: s)
  | .error e => .error e
  | .ok (a, ⟨rest, h⟩) => .ok (f a, ⟨rest, Nat.lt_succ_of_lt h⟩)

/-- Reads a value that may hold `levels - 1` levels of containers; none at all on level zero. -/
def readValue (total : Nat) : (levels : Nat) → (s : Bytes) → Step Value s
  | 0, _ => .error .nestingTooDeep
  | _ + 1, [] => .error (.unexpectedEnd total)
  | levels + 1, octet :: rest =>
    if octet = 0x69 then
      (readInteger total rest).behind .int
    else if octet = 0x6c then
      (readUntilEnd total (readValue total levels) rest).behind .list
    else if octet = 0x64 then
      (readUntilEnd total (readEntry total (readValue total levels)) rest).behind .ofEntries
    else if Decimal.isDigit octet then
      match readBytes total (octet :: rest) with
      | .error e => .error e
      | .ok (s, rest') => .ok (.bytes s, rest')
    else
      .error (.unexpectedByte octet (total - (octet :: rest).length))

/-- Reads exactly one value. -/
def decode (data : Bytes) : Except DecodeError Value :=
  match readValue data.length (maxDepth + 1) data with
  | .error e => .error e
  | .ok (v, ⟨rest, _⟩) =>
    if rest = [] then .ok v else .error (.trailingData (data.length - rest.length))

end Mainline.Bencode
