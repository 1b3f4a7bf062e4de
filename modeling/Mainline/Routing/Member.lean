import Mainline.Contact
import Mainline.Settings

/-!
# Members of the routing table

A member is a contact with what is known of its health: when it was last active and how often in a
row it has failed since. Its standing is never stored but follows from these at every instant.
-/

namespace Mainline

/-- How far a member is to be trusted. -/
inductive Standing where
  /-- Heard from lately, and no failure since. -/
  | good
  | questionable
  /-- Failed too often in a row. -/
  | bad
deriving DecidableEq, Repr

/-- How long after its last activity a member stays good. -/
def goodFor : Duration := 900000

/-- How many failures in a row make a member bad. -/
def failuresUntilBad : Nat := 2

/-- The number of failures at which counting stops. -/
def maxFailures : Nat := 255

/-- A contact with what is known of its health. -/
structure Member where
  contact : Contact
  /-- When the member was last active, if ever. -/
  lastActive : Option Instant
  /-- Failures in a row since then. -/
  failures : Nat
deriving DecidableEq, Repr

namespace Member

def id (m : Member) : Key := m.contact.id

def address (m : Member) : Address := m.contact.address

/-- A node that has just been heard from. -/
def active (contact : Contact) (now : Instant) : Member :=
  ⟨contact, some now, 0⟩

/-- A node that others have told of. -/
def hearsay (contact : Contact) : Member :=
  ⟨contact, none, 0⟩

/-- The member is active at `now`, which clears its failures. -/
def touch (m : Member) (now : Instant) : Member :=
  { m with lastActive := some now, failures := 0 }

/-- The member fails once more. -/
def fail (m : Member) : Member :=
  { m with failures := min maxFailures (m.failures + 1) }

/-- The standing of a member at `now`. -/
def standing (m : Member) (now : Instant) : Standing :=
  if m.failures ≥ failuresUntilBad then .bad
  else
    match m.lastActive with
    | some last => if m.failures = 0 ∧ elapsed last now < goodFor then .good else .questionable
    | none => .questionable

end Member

end Mainline
