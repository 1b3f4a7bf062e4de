import Mainline.Bencode.Value
import Mainline.Text.Decimal

/-!
# Writing bencode

An integer stands between `i` and `e` in canonical decimal notation, a byte string behind its
length and a colon, the items of a list between `l` and `e`, and the entries of a dictionary, in
the order of their keys, between `d` and `e`.
-/

namespace Mainline.Bencode

/-- A byte string behind its length and a colon. -/
def encodeBytes (s : Bytes) : Bytes :=
  Decimal.ofNat s.length ++ 0x3a :: s

mutual

/-- The bencode form of a value. -/
def encode : Value → Bytes
  | .int n => 0x69 :: Decimal.ofInt n.toInt ++ [0x65]
  | .bytes s => encodeBytes s
  | .list items => 0x6c :: encodeItems items ++ [0x65]
  | .dict entries => 0x64 :: encodeEntries entries ++ [0x65]

/-- The bencode forms of all items, one behind the other. -/
def encodeItems : List Value → Bytes
  | [] => []
  | v :: items => encode v ++ encodeItems items

/-- The keys and values of all entries, one behind the other. -/
def encodeEntries : List (Bytes × Value) → Bytes
  | [] => []
  | (key, v) :: entries => encodeBytes key ++ encode v ++ encodeEntries entries

end

end Mainline.Bencode
