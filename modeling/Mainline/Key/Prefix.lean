import Mainline.Key
import Mainline.Random

/-!
# Regions of the key space

A region is the set of all keys that begin with the same bits. It is kept as the number of those
bits and the number they spell, so a key lies in the region when its own leading bits spell the
same number, and a key of the region is that number followed by any free bits.
-/

namespace Mainline

/-- The keys whose first `length` bits, read as a number, are `stem`. -/
structure Prefix where
  length : Nat
  stem : Nat
  length_le : length ≤ 160
  stem_lt : stem < Nat.pow 2 length
deriving DecidableEq, Repr

namespace Prefix

/-- The number spelled by the first `length` bits of a key. -/
def stemOf (key : Key) (length : Nat) : Nat :=
  key.bits.toNat / Nat.pow 2 (160 - length)

theorem stemOf_lt (key : Key) {length : Nat} (h : length ≤ 160) :
    stemOf key length < Nat.pow 2 length := by
  have hkey : key.bits.toNat < 2 ^ 160 := key.bits.isLt
  have hsplit : 2 ^ length * 2 ^ (160 - length) = 2 ^ 160 := by
    rw [← Nat.pow_add]; congr 1; omega
  exact (Nat.div_lt_iff_lt_mul (Nat.pow_pos (by decide))).mpr (hsplit ▸ hkey)

end Prefix

/-- The region of the keys that share the first `length` bits with `key`; beyond 160 bits, `key`
alone. -/
def Key.leading (key : Key) (length : Nat) : Prefix where
  length := min length 160
  stem := Prefix.stemOf key (min length 160)
  length_le := Nat.min_le_right ..
  stem_lt := Prefix.stemOf_lt key (Nat.min_le_right ..)

namespace Prefix

/-- Does the region hold this key? -/
def contains (p : Prefix) (key : Key) : Bool :=
  stemOf key p.length == p.stem

/-- The number of octets that hold at least one free bit. -/
def freeOctets (p : Prefix) : Nat :=
  if p.length = 160 then 0 else keyLength - p.length / 8

/-- The key of the region whose free bits are the last bits of `drawn`. -/
def fill (p : Prefix) (drawn : Bytes) : Key :=
  let free := Nat.pow 2 (160 - p.length)
  ⟨BitVec.ofNat 160 (p.stem * free + ofBigEndian drawn % free)⟩

/-- A random key of the region. One octet is drawn for each octet of the key that holds a free
bit; of the first, the fixed bits are ignored. -/
def sample (p : Prefix) (stream : ByteStream) : Key × ByteStream :=
  let (drawn, stream) := stream.take p.freeOctets
  (p.fill drawn, stream)

/-- The short form that logs show: up to sixteen bits and the length. -/
def brief (p : Prefix) : String :=
  let shown := (List.range (min p.length 16)).map fun i =>
    if p.stem.testBit (p.length - 1 - i) then '1' else '0'
  let more := if p.length > 16 then ".." else ""
  "Prefix(" ++ String.ofList shown ++ more ++ "/" ++ toString p.length ++ ")"

end Prefix

/-- A random key. -/
def Key.sample (stream : ByteStream) : Key × ByteStream :=
  (Prefix.mk 0 0 (by decide) (by decide)).sample stream

end Mainline
