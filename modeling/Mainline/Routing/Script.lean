import Mainline.Routing.Table

/-!
# Scripts of table operations

An offer that asks questionable members takes time, and meanwhile others work on the table. A
script says what happens to a table in which order, including what happens while a member is being
asked; running it is a function from a table and an instant to another table and a later instant.
-/

namespace Mainline.Routing

/-- What is said of a node when it is offered. -/
inductive Sighting where
  /-- It is active now. -/
  | active
  /-- Others have told of it. -/
  | hearsay
  /-- It was active so long ago, if ever, and has failed so often since. -/
  | past (age : Option Duration) (failures : Nat)
deriving DecidableEq, Repr

/-- The node that is offered at `now`. -/
def Sighting.member (sighting : Sighting) (contact : Contact) (now : Instant) : Member :=
  match sighting with
  | active => .active contact now
  | hearsay => .hearsay contact
  | past age failures => ⟨contact, age.map fun age => now - age, failures⟩

/-- A table and the instant that has been reached. -/
structure Situation where
  table : Table
  now : Instant

mutual

/-- An operation on a table, or the passing of time. -/
inductive Operation where
  | observe (contact : Contact) (sighting : Sighting)
  /-- An offer that asks questionable members, the first of them by the first probe. -/
  | insert (contact : Contact) (sighting : Sighting) (probes : List Probe)
  | remove (id : Key)
  | markFailed (id : Key)
  | markSeen (id : Key)
  | wait (duration : Duration)

/-- What happens while a member is being asked, and whether it answers. -/
inductive Probe where
  | mk (during : List Operation) (answers : Bool)

end

/-- Asks questionable members in turn until the offer is decided. Members for whom there is no
probe do not answer. -/
def askUnscripted (s : Situation) (node : Member) :
    List Contact → Situation × Outcome × List Contact
  | [] => (s, .rejected, [])
  | asked :: questionable =>
    match s.table.resume s.now node asked.id false with
    | (table, some outcome) => ({ s with table }, outcome, [asked])
    | (table, none) =>
      let (s, outcome, more) := askUnscripted { s with table } node questionable
      (s, outcome, asked :: more)

mutual

/-- The situation after an operation. -/
def Operation.run (s : Situation) : Operation → Situation
  | .observe contact sighting =>
    { s with table := (s.table.observe s.now (sighting.member contact s.now)).1 }
  | .insert contact sighting probes =>
    let node := sighting.member contact s.now
    match s.table.place s.now node with
    | (table, .settled _) => { s with table }
    | (table, .contested questionable) => (ask { s with table } node probes questionable).1
  | .remove id => { s with table := (s.table.remove id).1 }
  | .markFailed id => { s with table := s.table.markFailed id }
  | .markSeen id => { s with table := s.table.markSeen s.now id }
  | .wait duration => { s with now := s.now + duration }

/-- The situation after several operations. -/
def Operation.runAll (s : Situation) : List Operation → Situation
  | [] => s
  | op :: ops => Operation.runAll (op.run s) ops

/-- Asks questionable members in turn, each by a probe of its own, until the offer is decided: the
situation then, the outcome and whom was asked. -/
def ask (s : Situation) (node : Member) :
    List Probe → List Contact → Situation × Outcome × List Contact
  | _, [] => (s, .rejected, [])
  | [], questionable => askUnscripted s node questionable
  | .mk during answers :: probes, asked :: questionable =>
    let s := Operation.runAll s during
    match s.table.resume s.now node asked.id answers with
    | (table, some outcome) => ({ s with table }, outcome, [asked])
    | (table, none) =>
      let (s, outcome, more) := ask { s with table } node probes questionable
      (s, outcome, asked :: more)

end

/-- Offers a node, asking questionable members by probes. -/
def Situation.insert (s : Situation) (node : Member) (probes : List Probe) :
    Situation × Outcome × List Contact :=
  match s.table.place s.now node with
  | (table, .settled outcome) => ({ s with table }, outcome, [])
  | (table, .contested questionable) => ask { s with table } node probes questionable

end Mainline.Routing
