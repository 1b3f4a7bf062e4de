import Mainline.Bytes

/-!
# SHA-1

The digest that tokens are cut from. The message is padded to whole blocks of sixteen words, and
each block is folded into a state of five words by eighty rounds.
-/

namespace Mainline.Sha1

/-- The five chaining words. -/
structure State where
  a : UInt32
  b : UInt32
  c : UInt32
  d : UInt32
  e : UInt32
deriving DecidableEq, Repr

/-- The chaining words before the first block. -/
def State.initial : State :=
  ⟨0x67452301, 0xefcdab89, 0x98badcfe, 0x10325476, 0xc3d2e1f0⟩

/-- Rotates a word left by `n` places, for `0 < n < 32`. -/
def rotateLeft (w : UInt32) (n : UInt32) : UInt32 :=
  (w <<< n) ||| (w >>> (32 - n))

/-- The message followed by a one bit, zeros up to eight octets short of a whole number of
64-octet blocks, and its length in bits. -/
def pad (message : Bytes) : Bytes :=
  let zeros := (119 - message.length % 64) % 64
  message ++ 0x80 :: List.replicate zeros 0 ++ bigEndian 8 (message.length * 8)

/-- Octets taken four at a time as words; fewer than four left over are dropped. -/
def words : Bytes → List UInt32
  | a :: b :: c :: d :: s => UInt32.ofNat (ofBigEndian [a, b, c, d]) :: words s
  | _ => []

/-- Adds `n` words to a schedule that is kept latest word first: each is the exclusive or of the
3rd, 8th, 14th and 16th latest before it, rotated left by one place. -/
def extend : (n : Nat) → (latest : List UInt32) → List UInt32
  | 0, latest => latest
  | n + 1, latest =>
    let w := latest.getD 2 0 ^^^ latest.getD 7 0 ^^^ latest.getD 13 0 ^^^ latest.getD 15 0
    extend n (rotateLeft w 1 :: latest)

/-- The mixing function and the constant of a round. -/
def mixing (round : Nat) (b c d : UInt32) : UInt32 × UInt32 :=
  if round < 20 then ((b &&& c) ||| (~~~b &&& d), 0x5a827999)
  else if round < 40 then (b ^^^ c ^^^ d, 0x6ed9eba1)
  else if round < 60 then ((b &&& c) ||| (b &&& d) ||| (c &&& d), 0x8f1bbcdc)
  else (b ^^^ c ^^^ d, 0xca62c1d6)

/-- One round with the schedule's word for it. -/
def State.round (st : State) (n : Nat) (w : UInt32) : State :=
  let (f, k) := mixing n st.b st.c st.d
  ⟨rotateLeft st.a 5 + f + st.e + k + w, st.a, rotateLeft st.b 30, st.c, st.d⟩

/-- Folds one block of sixteen words into the state. -/
def State.block (st : State) (block : List UInt32) : State :=
  let schedule := (extend 64 block.reverse).reverse
  let out := schedule.zipIdx.foldl (fun st (w, n) => st.round n w) st
  ⟨st.a + out.a, st.b + out.b, st.c + out.c, st.d + out.d, st.e + out.e⟩

/-- Folds `n` blocks, taken from the front of `ws`. -/
def State.blocks (st : State) : (n : Nat) → (ws : List UInt32) → State
  | 0, _ => st
  | n + 1, ws => (st.block (ws.take 16)).blocks n (ws.drop 16)

/-- The twenty octets of the final state. -/
def State.toBytes (st : State) : Bytes :=
  [st.a, st.b, st.c, st.d, st.e].flatMap fun w => bigEndian 4 w.toNat

/-- The SHA-1 digest of a message. -/
def digest (message : Bytes) : Bytes :=
  let ws := words (pad message)
  (State.initial.blocks (ws.length / 16) ws).toBytes

theorem digest_length (message : Bytes) : (digest message).length = 20 := by
  simp [digest, State.toBytes]

end Mainline.Sha1
