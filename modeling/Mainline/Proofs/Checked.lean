import Mathlib.Data.Nat.Notation
import Mainline.Bytes
import Mainline.Proofs.Basic

/-!
# Checked accesses

Octets that lie in memory are accessed by their offsets, and this can go wrong in ways for which
functions on lists have no words: there may be nothing at an offset, a sum of offsets may be no
machine word, a loop may not end. A computation that checks all its accesses has such a `Stop` for
each of them, apart from the failures that are among its outcomes. It is safe if it does what a
function without accesses does: then it never stops but with the failures of that function.

## Main definitions

* `Stop`: why a checked computation stops.
* `Checked.octet`, `Checked.slice`, `Checked.sum`: the accesses.
-/

namespace Mainline

/-- Why a checked computation stops. -/
inductive Stop (ε : Type) where
  /-- It fails, which is one of its outcomes. -/
  | fails (e : ε)
  /-- An octet is taken from where there is none. -/
  | outOfRange
  /-- A cursor is moved beyond the end of the input. -/
  | strayed
  /-- A sum is no machine word. -/
  | overflow
  /-- There is no fuel left. -/
  | outOfFuel
deriving DecidableEq, Repr

/-- The same with the failures renamed. -/
def Stop.map {ε ε' : Type} (f : ε → ε') : Stop ε → Stop ε'
  | fails e => fails (f e)
  | outOfRange => outOfRange
  | strayed => strayed
  | overflow => overflow
  | outOfFuel => outOfFuel

namespace Checked

variable {ε : Type}

/-- The octet at an offset. -/
def octet (s : Bytes) (offset : ℕ) : Except (Stop ε) UInt8 :=
  match s[offset]? with
  | some octet => .ok octet
  | none => .error .outOfRange

/-- The octets from one offset up to another. -/
def slice (s : Bytes) (start stop : ℕ) : Except (Stop ε) Bytes :=
  if start ≤ stop ∧ stop ≤ s.length then .ok ((s.drop start).take (stop - start))
  else .error .outOfRange

/-- A sum of offsets. -/
def sum (m n : ℕ) : Except (Stop ε) ℕ :=
  if m + n < UInt64.size then .ok (m + n) else .error .overflow

/-- A sum of offsets, if it is a machine word. -/
def sum? (m n : ℕ) : Option ℕ :=
  if m + n < UInt64.size then some (m + n) else none

end Checked

end Mainline
