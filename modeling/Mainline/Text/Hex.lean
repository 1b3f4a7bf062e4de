import Mainline.Bytes

/-!
# Hexadecimal text

Identifiers and tokens are shown as two lower-case digits an octet. Reading accepts either case
and says what is wrong with a text it refuses: an odd number of octets, or the first octet that is
no digit.
-/

namespace Mainline.Hex

/-- The lower-case digit of a number below sixteen. -/
def digit (n : Nat) : Char :=
  if n < 10 then Char.ofNat (0x30 + n) else Char.ofNat (0x57 + n)

/-- The value of an octet that is a hexadecimal digit of either case. -/
def digitValue? (octet : UInt8) : Option Nat :=
  if 0x30 ≤ octet ∧ octet ≤ 0x39 then some (octet.toNat - 0x30)
  else if 0x61 ≤ octet ∧ octet ≤ 0x66 then some (octet.toNat - 0x57)
  else if 0x41 ≤ octet ∧ octet ≤ 0x46 then some (octet.toNat - 0x37)
  else none

/-- One octet as two lower-case digits. -/
def ofOctet (octet : UInt8) : List Char :=
  [digit (octet.toNat / 16), digit (octet.toNat % 16)]

/-- Octets as lower-case digits. -/
def ofBytes (s : Bytes) : String :=
  String.ofList (s.flatMap ofOctet)

/-- A number in lower-case digits, without leading zeros. -/
def ofNat (n : Nat) : List Char :=
  if n < 16 then [digit n] else ofNat (n / 16) ++ [digit (n % 16)]
  termination_by n
  decreasing_by omega

/-- What keeps a text from being hexadecimal. -/
inductive Error where
  /-- The digits do not pair up. -/
  | oddLength
  /-- The octet at `index` is not a digit. -/
  | invalidDigit (octet : UInt8) (index : Nat)
deriving DecidableEq, Repr

/-- Reads pairs of digits; `index` is the position of the first octet of `s` in the whole text. -/
def pairs (index : Nat) : Bytes → Except Error Bytes
  | [] => .ok []
  | [_] => .error .oddLength
  | high :: low :: s =>
    match digitValue? high, digitValue? low with
    | none, _ => .error (.invalidDigit high index)
    | some _, none => .error (.invalidDigit low (index + 1))
    | some h, some l => (pairs (index + 2) s).map (UInt8.ofNat (h * 16 + l) :: ·)

/-- Reads hexadecimal digits. An odd length is reported before any bad digit. -/
def toBytes (digits : Bytes) : Except Error Bytes :=
  if digits.length % 2 = 1 then .error .oddLength else pairs 0 digits

end Mainline.Hex
