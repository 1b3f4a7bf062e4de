import Mainline.Address
import Mainline.Text.Hex

/-!
# The text of an address

Hosts of version 4 are written as four decimal numbers, hosts of version 6 as hexadecimal groups
in the shortest form: the longest run of two or more zero groups, the first of equally long ones,
becomes `::`, and a host that stands for one of version 4 shows that in decimal behind `::ffff:`.
A port follows behind a colon; a host of version 6 then stands in brackets, with its zone, if not
zero, behind a percent sign.

Readers take text off the front of a list of characters and return what is left.
-/

namespace Mainline

/-! ### Writing -/

/-- Four decimal numbers with dots between them. -/
def IPv4.toString (host : IPv4) : String :=
  ".".intercalate ([host.a, host.b, host.c, host.d].map fun octet => ToString.toString octet.toNat)

namespace IPv6

/-- The number of zero groups at the front. -/
def leadingZeroGroups (groups : List UInt16) : Nat :=
  (groups.takeWhile (· == 0)).length

/-- Start and length of the longest run of zero groups, the first of equally long ones. -/
def longestZeroRun (groups : List UInt16) : Nat × Nat :=
  let runs := (List.range groups.length).map fun start =>
    (start, leadingZeroGroups (groups.drop start))
  runs.foldl (fun best run => if best.2 < run.2 then run else best) (0, 0)

/-- Groups in hexadecimal digits with colons between them. -/
def groupsToString (groups : List UInt16) : String :=
  ":".intercalate (groups.map fun group => String.ofList (Hex.ofNat group.toNat))

/-- The shortest form of a host. -/
def toString (host : IPv6) : String :=
  match host.groups.toList with
  | [0, 0, 0, 0, 0, 0xffff, high, low] =>
    let octets := bigEndian 2 high.toNat ++ bigEndian 2 low.toNat
    "::ffff:" ++ ".".intercalate (octets.map fun octet => ToString.toString octet.toNat)
  | groups =>
    let (start, length) := longestZeroRun groups
    if length > 1 then
      groupsToString (groups.take start) ++ "::" ++ groupsToString (groups.drop (start + length))
    else
      groupsToString groups

end IPv6

/-- The text of a host of either version. -/
def IP.toString : IP → String
  | v4 host => host.toString
  | v6 host => host.toString

/-- The text of host and port. -/
def Address.toString : Address → String
  | v4 host port => host.toString ++ ":" ++ ToString.toString port.toNat
  | v6 host port zone =>
    let zone := if zone = 0 then "" else "%" ++ ToString.toString zone.toNat
    "[" ++ host.toString ++ zone ++ "]:" ++ ToString.toString port.toNat

/-! ### Reading -/

namespace AddressReader

/-- The value of a digit to a base of at most sixteen. -/
def digitValue? (base : Nat) (c : Char) : Option Nat :=
  let value? :=
    if '0' ≤ c ∧ c ≤ '9' then some (c.toNat - 0x30)
    else if 'a' ≤ c ∧ c ≤ 'f' then some (c.toNat - 0x57)
    else if 'A' ≤ c ∧ c ≤ 'F' then some (c.toNat - 0x37)
    else none
  value?.filter (· < base)

/-- The digits at the front, as their values, and what is left. -/
def digits (base : Nat) : List Char → List Nat × List Char
  | [] => ([], [])
  | c :: s =>
    match digitValue? base c with
    | none => ([], c :: s)
    | some d =>
      let (ds, rest) := digits base s
      (d :: ds, rest)

/-- Reads a number of one up to `maxDigits` digits that is at most `limit`. -/
def number? (base maxDigits limit : Nat) (s : List Char) : Option (Nat × List Char) :=
  let (ds, rest) := digits base s
  let n := ds.foldl (fun n d => n * base + d) 0
  if ds ≠ [] ∧ ds.length ≤ maxDigits ∧ n ≤ limit then some (n, rest) else none

/-- Reads a given character. -/
def char? (c : Char) : List Char → Option (List Char)
  | [] => none
  | d :: s => if d = c then some s else none

/-- Reads a decimal number below 256 of at most three digits, with no leading zero. -/
def octet? (s : List Char) : Option (UInt8 × List Char) := do
  let (n, rest) ← number? 10 3 255 s
  if s.head? = some '0' ∧ (digits 10 s).1.length > 1 then none
  return (UInt8.ofNat n, rest)

/-- Reads four octets with dots between them. -/
def ipv4? (s : List Char) : Option (IPv4 × List Char) := do
  let (a, s) ← octet? s
  let (b, s) ← octet? (← char? '.' s)
  let (c, s) ← octet? (← char? '.' s)
  let (d, s) ← octet? (← char? '.' s)
  return (⟨a, b, c, d⟩, s)

/-- Two groups that stand for a host of version 4. -/
def groupsOfIPv4 (host : IPv4) : List UInt16 :=
  [UInt16.ofNat (ofBigEndian [host.a, host.b]), UInt16.ofNat (ofBigEndian [host.c, host.d])]

/-- Reads up to `room` groups with colons between them, the last two of which may be written as a
host of version 4; says whether they were. Reads nothing more where no group follows a colon. -/
def groups (first : Bool) : (room : Nat) → (s : List Char) → List UInt16 × Bool × List Char
  | 0, s => ([], false, s)
  | room + 1, s =>
    match if first then some s else char? ':' s with
    | none => ([], false, s)
    | some body =>
      match if room = 0 then none else ipv4? body with
      | some (host, rest) => (groupsOfIPv4 host, true, rest)
      | none =>
        match number? 16 4 0xffff body with
        | none => ([], false, s)
        | some (n, rest) =>
          let (more, dotted, rest) := groups false room rest
          (UInt16.ofNat n :: more, dotted, rest)

/-- The host with exactly these groups. -/
def ipv6OfGroups? (groups : List UInt16) : Option IPv6 :=
  if h : groups.length = 8 then some ⟨⟨groups.toArray, by simp [h]⟩⟩ else none

/-- Reads a host of version 6. At most one `::` stands for the groups that are missing. -/
def ipv6? (s : List Char) : Option (IPv6 × List Char) := do
  let (front, dotted, rest) := groups true 8 s
  if front.length = 8 then
    return (← ipv6OfGroups? front, rest)
  if dotted then none
  let rest ← char? ':' (← char? ':' rest)
  let (back, _, rest) := groups true (7 - front.length) rest
  let zeros := List.replicate (8 - front.length - back.length) 0
  return (← ipv6OfGroups? (front ++ zeros ++ back), rest)

/-- Reads a colon and a decimal number below 65536. -/
def port? (s : List Char) : Option (UInt16 × List Char) := do
  let s ← char? ':' s
  let (n, rest) ← number? 10 s.length 65535 s
  return (UInt16.ofNat n, rest)

/-- Reads a percent sign and a decimal number below `2 ^ 32`. -/
def zone? (s : List Char) : Option (UInt32 × List Char) := do
  let s ← char? '%' s
  let (n, rest) ← number? 10 s.length (UInt32.size - 1) s
  return (UInt32.ofNat n, rest)

/-- Reads a host of version 4 and a port. -/
def addressV4? (s : List Char) : Option (Address × List Char) := do
  let (host, s) ← ipv4? s
  let (port, s) ← port? s
  return (.v4 host port, s)

/-- Reads a host of version 6 in brackets, perhaps with a zone, and a port. -/
def addressV6? (s : List Char) : Option (Address × List Char) := do
  let s ← char? '[' s
  let (host, s) ← ipv6? s
  let (zone, s) := (zone? s).getD (0, s)
  let s ← char? ']' s
  let (port, s) ← port? s
  return (.v6 host port zone, s)

end AddressReader

/-- The address that a whole text spells. -/
def Address.ofString? (text : String) : Option Address :=
  let s := text.toList
  match AddressReader.addressV4? s <|> AddressReader.addressV6? s with
  | some (address, []) => some address
  | _ => none

end Mainline
