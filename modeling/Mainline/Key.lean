import Mainline.Bytes
import Mainline.Text.Hex

/-!
# Keys and the distance between them

Nodes and torrents live in one space of 160-bit keys: a node id is a key, an info hash is a key.
The distance of two keys is the exclusive or of their bits, compared as an unsigned number, so the
keys that share more leading bits with a target are the nearer ones.
-/

namespace Mainline

/-- The number of bits of a key. -/
def keyBits : Nat := 160

/-- The number of octets of a key. -/
def keyLength : Nat := 20

/-- A point of the identifier space: a node id or an info hash. -/
structure Key where
  bits : BitVec 160
deriving DecidableEq, Repr

namespace Key

instance : Inhabited Key := ⟨⟨0⟩⟩

/-- The key that twenty octets spell, most significant first; any other number of octets spells
none. -/
def ofBytes? (s : Bytes) : Option Key :=
  if s.length = keyLength then some ⟨BitVec.ofNat 160 (ofBigEndian s)⟩ else none

/-- The twenty octets of a key. -/
def toBytes (key : Key) : Bytes :=
  bigEndian keyLength key.bits.toNat

/-- Forty lower-case hexadecimal digits. -/
def toHex (key : Key) : String :=
  Hex.ofBytes key.toBytes

/-- The short form of a key that logs show: its first two octets. -/
def brief (key : Key) : String :=
  "NodeId(" ++ Hex.ofBytes (key.toBytes.take 2) ++ "..)"

/-- Bit `index` of a key, counted from the most significant one. -/
def bit (key : Key) (index : Nat) : Bool :=
  key.bits.getMsbD index

/-- The key that differs from `key` in bit `index` only, counted from the most significant one. -/
def flipBit (key : Key) (index : Nat) : Key :=
  ⟨key.bits ^^^ BitVec.twoPow 160 (159 - index)⟩

/-- The order of keys as unsigned numbers. -/
def order (a b : Key) : Ordering :=
  compare a.bits.toNat b.bits.toNat

end Key

/-- How far two keys are apart. -/
structure Distance where
  bits : BitVec 160
deriving DecidableEq, Repr

namespace Distance

/-- Distances are ordered as unsigned numbers. -/
instance : LT Distance := ⟨fun a b => a.bits < b.bits⟩

instance : LE Distance := ⟨fun a b => a.bits ≤ b.bits⟩

instance (a b : Distance) : Decidable (a < b) := inferInstanceAs (Decidable (a.bits < b.bits))

instance (a b : Distance) : Decidable (a ≤ b) := inferInstanceAs (Decidable (a.bits ≤ b.bits))

/-- The number of zero bits before the first one bit, 160 if there is none. -/
def leadingZeros (d : Distance) : Nat :=
  if d.bits = 0 then keyBits else 159 - d.bits.toNat.log2

/-- Is this the distance of a key from itself? -/
def isZero (d : Distance) : Bool :=
  d.bits == 0

/-- Twenty octets in lower-case hexadecimal digits. -/
def toHex (d : Distance) : String :=
  Hex.ofBytes (bigEndian keyLength d.bits.toNat)

end Distance

namespace Key

/-- The exclusive or of two keys. -/
def distance (a b : Key) : Distance :=
  ⟨a.bits ^^^ b.bits⟩

/-- The number of leading bits in which two keys agree, 160 if they are equal. -/
def sharedBits (a b : Key) : Nat :=
  (a.distance b).leadingZeros

end Key

/-- Sorts by ascending distance to `target`; what is equally far keeps its order. -/
def sortByDistance {α : Type} (target : Key) (key : α → Key) (xs : List α) : List α :=
  xs.mergeSort fun x y => decide ((key x).distance target ≤ (key y).distance target)

end Mainline
