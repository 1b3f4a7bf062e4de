import Mainline.Bytes

/-!
# Sources of random octets

Whoever needs random octets takes them from the front of a stream and keeps the rest. A stream
yields the octets it was given and after them those of a linear congruential generator, so a run
is determined by its streams. A node draws transaction ids, token secrets and identifiers from
three streams of their own.
-/

namespace Mainline

/-- An endless stream of octets: first `given`, then the generator that stands at `state`. -/
structure ByteStream where
  given : Bytes
  state : UInt32
deriving Repr

namespace ByteStream

/-- The next octet and the stream behind it. A generated octet is the highest of the new state. -/
def next (stream : ByteStream) : UInt8 × ByteStream :=
  match stream.given with
  | octet :: given => (octet, { stream with given })
  | [] =>
    let state := stream.state * 1664525 + 1013904223
    ((state >>> 24).toUInt8, { stream with state })

/-- The next `n` octets and the stream behind them. -/
def take : (n : Nat) → (stream : ByteStream) → Bytes × ByteStream
  | 0, stream => ([], stream)
  | n + 1, stream =>
    let (octet, stream) := stream.next
    let (rest, stream) := take n stream
    (octet :: rest, stream)

/-- After so many draws of two octets each, everything that there is to draw has been drawn: the
generator goes round all its states, and a draw takes two steps. -/
def span (stream : ByteStream) : Nat :=
  stream.given.length + UInt32.size / 2

/-- A draw of `n` octets has exactly `n` octets. -/
theorem take_length (n : Nat) (stream : ByteStream) : (stream.take n).1.length = n := by
  induction n generalizing stream with
  | zero => rfl
  | succ n ih => simp [take, ih]

end ByteStream

/-- The three streams that nodes draw from. -/
structure Entropy where
  /-- Transaction ids, two octets a draw. -/
  transactions : ByteStream := ⟨[], 1⟩
  /-- Token secrets, sixteen octets a draw. -/
  secrets : ByteStream := ⟨[], 2⟩
  /-- Identifiers, and the free bits of identifiers with a fixed beginning. -/
  keys : ByteStream := ⟨[], 3⟩
deriving Repr

end Mainline
