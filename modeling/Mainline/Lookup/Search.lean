import Mainline.Krpc.Message
import Mainline.Settings

/-!
# The state of a search

A lookup searches the key space for the nodes nearest to a target. It keeps three collections: the
candidates it has heard of and not yet asked, the ids it has asked or that have answered under
another id, and the contacts that answered. Candidates and contacts are kept nearest first and hold
each id once.

The search ends when no candidate is left, when all candidates are farther away than the last of as
many contacts as are wanted, or when it has that many and the last round found none nearer than the
best one before.
-/

namespace Mainline

/-- Contacts in order of their distance to `target`, nearest first, each id once. -/
def insertNearest (target : Key) (contact : Contact) (replace : Bool) :
    List Contact → List Contact
  | [] => [contact]
  | c :: cs =>
    if c.id = contact.id then (if replace then contact else c) :: cs
    else if contact.id.distance target < c.id.distance target then contact :: c :: cs
    else c :: insertNearest target contact replace cs

/-- A search under way. -/
structure Search where
  target : Key
  /-- The id of the node that searches. -/
  localId : Key
  /-- How many contacts are wanted. -/
  wanted : Nat
  /-- How many candidates are asked in a round. -/
  parallelism : Nat
  /-- The ids that are not to be asked any more. -/
  asked : List Key
  candidates : List Contact
  /-- The contacts that answered. -/
  answered : List Contact
  /-- The number of rounds so far. -/
  rounds : Nat
  /-- The number of answers so far. -/
  answers : Nat

namespace Search

/-- A search that has heard of nobody. At least one contact is wanted. -/
def create (target localId : Key) (capacity parallelism : Nat) : Search where
  target
  localId
  wanted := max capacity 1
  parallelism
  asked := []
  candidates := []
  answered := []
  rounds := 0
  answers := 0

/-- Hears of a contact. What was heard first of an id stays. -/
def hearOf (s : Search) (contact : Contact) : Search :=
  if contact.id = s.localId ∨ s.asked.contains contact.id then s
  else { s with candidates := insertNearest s.target contact false s.candidates }

/-- Hears of several contacts. -/
def hearOfAll (s : Search) (contacts : List Contact) : Search :=
  contacts.foldl hearOf s

/-- The distance of the nearest contact that answered. -/
def best? (s : Search) : Option Distance :=
  s.answered.head?.map fun c => c.id.distance s.target

/-- Are there enough contacts, and all candidates farther away than the last of them? -/
def isExhausted (s : Search) : Bool :=
  match s.answered[s.wanted - 1]?, s.candidates.head? with
  | none, _ => false
  | some _, none => true
  | some last, some nearest =>
    decide (last.id.distance s.target < nearest.id.distance s.target)

/-- Marks an id as not to be asked any more. -/
def markAsked (s : Search) (id : Key) : Search :=
  if s.asked.contains id then s else { s with asked := s.asked ++ [id] }

/-- Takes the nearest candidates to ask in the next round, and counts the round. -/
def nextRound (s : Search) : List Contact × Search :=
  let batch := s.candidates.take s.parallelism
  let s := batch.foldl (fun s c => s.markAsked c.id) s
  (batch, { s with candidates := s.candidates.drop s.parallelism, rounds := s.rounds + 1 })

/-- Takes an answer: `asked` is the contact that was asked, `id` the id it answered under and
`heard` what it told of. An answer under the searcher's own id is ignored. -/
def accept (s : Search) (asked : Contact) (id : Key) (heard : List Contact) : Search :=
  if id = s.localId then s
  else
    let s := { s with answers := s.answers + 1 }
    let s :=
      if id = asked.id then s
      else
        let s := s.markAsked id
        { s with candidates := s.candidates.filter (·.id != id) }
    let s := s.hearOfAll heard
    { s with answered := insertNearest s.target ⟨id, asked.address⟩ true s.answered }

/-- Does the search get nowhere: enough contacts, and none nearer than the best one before? -/
def isStuck (s : Search) (before : Option Distance) : Bool :=
  let improved := match before, s.best? with
    | none, some _ => true
    | some before, some after => decide (after < before)
    | _, none => false
  !improved && decide (s.answered.length ≥ s.wanted)

/-- The nearest contacts that answered, as many as are wanted. -/
def closest (s : Search) : List Contact :=
  s.answered.take s.wanted

end Search

end Mainline
