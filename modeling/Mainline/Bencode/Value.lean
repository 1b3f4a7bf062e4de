import Mainline.Bytes

/-!
# Bencode values

A value is an integer of 64 bits, a byte string, a list, or a dictionary with byte strings as
keys. A dictionary is kept as its entries in strictly ascending order of keys; `Value.ofEntries`
builds one from entries in any order, the last of several entries with one key winning.

## Main definitions

* `Value.depth` — how many containers lie around the innermost element.
* `Value.Canonical` — every dictionary inside the value is strictly sorted.
-/

namespace Mainline.Bencode

/-- A bencode value. -/
inductive Value where
  /-- A signed integer of 64 bits. -/
  | int (n : Int64)
  /-- A byte string, which need not be text. -/
  | bytes (s : Bytes)
  /-- Values in order. -/
  | list (items : List Value)
  /-- Values under keys, in ascending order of keys. -/
  | dict (entries : List (Bytes × Value))

namespace Value

instance : Inhabited Value := ⟨int 0⟩

/-! ### Equality -/

mutual

/-- Decides whether two values are equal. -/
def decideEq : (v w : Value) → Decidable (v = w)
  | int m, int n => decidable_of_iff (m = n) (by simp)
  | bytes s, bytes t => decidable_of_iff (s = t) (by simp)
  | list xs, list ys =>
    match decideEqItems xs ys with
    | .isTrue h => .isTrue (by rw [h])
    | .isFalse h => .isFalse (by simpa using h)
  | dict xs, dict ys =>
    match decideEqEntries xs ys with
    | .isTrue h => .isTrue (by rw [h])
    | .isFalse h => .isFalse (by simpa using h)
  | int _, bytes _ => .isFalse (by simp)
  | int _, list _ => .isFalse (by simp)
  | int _, dict _ => .isFalse (by simp)
  | bytes _, int _ => .isFalse (by simp)
  | bytes _, list _ => .isFalse (by simp)
  | bytes _, dict _ => .isFalse (by simp)
  | list _, int _ => .isFalse (by simp)
  | list _, bytes _ => .isFalse (by simp)
  | list _, dict _ => .isFalse (by simp)
  | dict _, int _ => .isFalse (by simp)
  | dict _, bytes _ => .isFalse (by simp)
  | dict _, list _ => .isFalse (by simp)

/-- Decides whether two lists of values are equal. -/
def decideEqItems : (xs ys : List Value) → Decidable (xs = ys)
  | [], [] => .isTrue rfl
  | [], _ :: _ => .isFalse (by simp)
  | _ :: _, [] => .isFalse (by simp)
  | x :: xs, y :: ys =>
    match decideEq x y, decideEqItems xs ys with
    | .isTrue h, .isTrue hs => .isTrue (by rw [h, hs])
    | .isFalse h, _ => .isFalse (by simp [h])
    | .isTrue _, .isFalse h => .isFalse (by simp [h])

/-- Decides whether two lists of entries are equal. -/
def decideEqEntries : (xs ys : List (Bytes × Value)) → Decidable (xs = ys)
  | [], [] => .isTrue rfl
  | [], _ :: _ => .isFalse (by simp)
  | _ :: _, [] => .isFalse (by simp)
  | (k, x) :: xs, (l, y) :: ys =>
    if hk : k = l then
      match decideEq x y, decideEqEntries xs ys with
      | .isTrue h, .isTrue hs => .isTrue (by rw [hk, h, hs])
      | .isFalse h, _ => .isFalse (by simp [h])
      | .isTrue _, .isFalse h => .isFalse (by simp [h])
    else
      .isFalse (by simp [hk])

end

instance : DecidableEq Value := decideEq

/-! ### Dictionaries -/

/-- Puts a value under a key: into its place in the order, or instead of the value that was
there. -/
def insertEntry (key : Bytes) (value : Value) : List (Bytes × Value) → List (Bytes × Value)
  | [] => [(key, value)]
  | (k, v) :: entries =>
    if key = k then (key, value) :: entries
    else if key < k then (key, value) :: (k, v) :: entries
    else (k, v) :: insertEntry key value entries

/-- The dictionary with these entries, the last one winning where keys repeat. -/
def ofEntries (entries : List (Bytes × Value)) : Value :=
  dict (entries.foldl (fun sorted (key, value) => insertEntry key value sorted) [])

/-- The value under a key; nothing if there is none or `v` is no dictionary. -/
def get? (v : Value) (key : Bytes) : Option Value :=
  match v with
  | dict entries => entries.lookup key
  | _ => none

/-! ### Nesting and order -/

mutual

/-- The greatest number of containers around an element: zero for a value that holds none. -/
def depth : Value → Nat
  | int _ => 0
  | bytes _ => 0
  | list items => depthItems items
  | dict entries => depthEntries entries

/-- One more than the greatest depth among the items, zero if there are none. -/
def depthItems : List Value → Nat
  | [] => 0
  | v :: items => max (depth v + 1) (depthItems items)

/-- One more than the greatest depth among the values, zero if there are none. -/
def depthEntries : List (Bytes × Value) → Nat
  | [] => 0
  | (_, v) :: entries => max (depth v + 1) (depthEntries entries)

end

mutual

/-- Every dictionary in the value has its keys in strictly ascending order. -/
def Canonical : Value → Prop
  | int _ => True
  | bytes _ => True
  | list items => CanonicalItems items
  | dict entries => (entries.map Prod.fst).Pairwise (· < ·) ∧ CanonicalEntries entries

/-- Every item is canonical. -/
def CanonicalItems : List Value → Prop
  | [] => True
  | v :: items => Canonical v ∧ CanonicalItems items

/-- Every value under a key is canonical. -/
def CanonicalEntries : List (Bytes × Value) → Prop
  | [] => True
  | (_, v) :: entries => Canonical v ∧ CanonicalEntries entries

end

end Value

end Mainline.Bencode
