import Mainline.Routing.Member

/-!
# The routing table

A node keeps the nodes it knows in 160 buckets: bucket `i` is for the ids that share exactly `i`
leading bits with its own, so the first covers half of the key space and the last a single key.
A bucket holds a bounded number of members, in the order in which they came.

A node that is offered to a full bucket takes the place of a bad member. If there is none, it may
still take the place of a questionable one that does not answer when it is asked. That takes time,
in which the table may change; `place` therefore only says which members are in question, and
`resume` goes on once one of them has been asked.

## Main definitions

* `Table.observe` — an offer that asks nobody.
* `Table.place`, `Table.resume` — an offer that asks questionable members.
* `Table.closest`, `Table.closestLive` — the members nearest to a key.
-/

namespace Mainline.Routing

/-- The members of one bucket, in the order in which they came, and when they last changed. -/
structure Bucket where
  members : List Member
  changed : Instant
deriving Repr

namespace Bucket

/-- The member with this id. -/
def find? (b : Bucket) (id : Key) : Option Member :=
  b.members.find? (·.id == id)

/-- Changes the member with this id, if there is one. -/
def modify (b : Bucket) (id : Key) (f : Member → Member) : Bucket :=
  { b with members := b.members.map fun m => if m.id = id then f m else m }

/-- Puts a member last. -/
def push (b : Bucket) (m : Member) (now : Instant) : Bucket :=
  ⟨b.members ++ [m], now⟩

/-- Puts `m` in the place of the member with this id. -/
def replace (b : Bucket) (id : Key) (m : Member) (now : Instant) : Bucket :=
  ⟨b.members.map fun old => if old.id = id then m else old, now⟩

/-- Drops the member with this id. -/
def erase (b : Bucket) (id : Key) : Bucket :=
  { b with members := b.members.filter (·.id != id) }

end Bucket

/-- What became of a node that was offered. -/
inductive Outcome where
  /-- It has become a member. -/
  | added
  /-- It was a member already; its address is now the one that was offered. -/
  | refreshed
  /-- It has taken the place of the member with this id. -/
  | replaced (id : Key)
  /-- Its bucket is full of members that are not to be given up. -/
  | rejected
  /-- It has the table's own id. -/
  | ignored
deriving DecidableEq, Repr

/-- Is the node that was offered a member now? -/
def Outcome.isStored : Outcome → Bool
  | added | refreshed | replaced _ => true
  | rejected | ignored => false

/-- How far an offer can be decided without asking anyone. -/
inductive Placement where
  /-- It is decided. -/
  | settled (outcome : Outcome)
  /-- The bucket is full, nobody in it is bad, and these members are questionable. -/
  | contested (questionable : List Contact)
deriving DecidableEq, Repr

/-- The nodes that a node knows. -/
structure Table where
  /-- The id of the node itself. -/
  localId : Key
  /-- How many members a bucket may hold. -/
  capacity : Nat
  buckets : Vector Bucket 160

namespace Table

/-- A table without members. -/
def empty (localId : Key) (capacity : Nat) (now : Instant) : Table :=
  ⟨localId, capacity, Vector.replicate 160 ⟨[], now⟩⟩

/-- The bucket an id belongs to; the table's own id belongs to none. -/
def bucketIndex? (t : Table) (id : Key) : Option (Fin 160) :=
  let shared := t.localId.sharedBits id
  if h : shared < 160 then some ⟨shared, h⟩ else none

/-- The ids that belong to a bucket: those that share the bits before bit `i` with the table's own
id and differ from it in bit `i`. -/
def bucketRegion (t : Table) (i : Fin 160) : Prefix :=
  (t.localId.flipBit i).leading (i + 1)

/-- One of the buckets. -/
def bucket (t : Table) (i : Fin 160) : Bucket :=
  t.buckets[i]

/-- Changes one bucket. -/
def modifyBucket (t : Table) (i : Fin 160) (f : Bucket → Bucket) : Table :=
  { t with buckets := t.buckets.set i (f (t.bucket i)) }

/-- All members, bucket by bucket. -/
def members (t : Table) : List Member :=
  t.buckets.toList.flatMap (·.members)

/-- The number of members. -/
def size (t : Table) : Nat :=
  t.members.length

def isEmpty (t : Table) : Bool :=
  t.size == 0

/-- The member with this id. -/
def get? (t : Table) (id : Key) : Option Member := do
  let i ← t.bucketIndex? id
  (t.bucket i).find? id

/-! ### Offers -/

/-- Places a node as far as that can be done at once. A member that is offered again takes on the
address and, if the offer tells of any activity, is active now. -/
def place (t : Table) (now : Instant) (node : Member) : Table × Placement :=
  match t.bucketIndex? node.id with
  | none => (t, .settled .ignored)
  | some i =>
    let bucket := t.bucket i
    if (bucket.find? node.id).isSome then
      let refresh (m : Member) : Member :=
        let m := { m with contact := node.contact }
        if node.lastActive.isSome then m.touch now else m
      (t.modifyBucket i (·.modify node.id refresh), .settled .refreshed)
    else if bucket.members.length < t.capacity then
      (t.modifyBucket i (·.push node now), .settled .added)
    else
      match bucket.members.find? (·.standing now == .bad) with
      | some bad =>
        (t.modifyBucket i (·.replace bad.id node now), .settled (.replaced bad.id))
      | none =>
        match bucket.members.filter (·.standing now == .questionable) with
        | [] => (t, .settled .rejected)
        | questionable => (t, .contested (questionable.map (·.contact)))

/-- Offers a node without asking anyone. -/
def observe (t : Table) (now : Instant) (node : Member) : Table × Outcome :=
  match t.place now node with
  | (t, .settled outcome) => (t, outcome)
  | (t, .contested _) => (t, .rejected)

/-- The member with this id is active. -/
def markSeen (t : Table) (now : Instant) (id : Key) : Table :=
  match t.bucketIndex? id with
  | none => t
  | some i =>
    if ((t.bucket i).find? id).isSome then
      t.modifyBucket i fun b => { b.modify id (·.touch now) with changed := now }
    else t

/-- The member with this id has failed once more. -/
def markFailed (t : Table) (id : Key) : Table :=
  match t.bucketIndex? id with
  | none => t
  | some i => t.modifyBucket i (·.modify id Member.fail)

/-- Goes on with a contested offer once the questionable member `asked` has answered or failed to:
the outcome, or nothing if the next member is to be asked. -/
def resume (t : Table) (now : Instant) (node : Member) (asked : Key) (answered : Bool) :
    Table × Option Outcome :=
  if answered then
    (t.markSeen now asked, none)
  else
    let t := t.markFailed asked
    match t.bucketIndex? node.id with
    | none => (t, some .ignored)
    | some i =>
      let bucket := t.bucket i
      if (bucket.find? node.id).isSome then (t, some .refreshed)
      else if (bucket.find? asked).isSome then
        (t.modifyBucket i (·.replace asked node now), some (.replaced asked))
      else if bucket.members.length < t.capacity then
        (t.modifyBucket i (·.push node now), some .added)
      else (t, none)

/-- Drops the member with this id, and says who it was. -/
def remove (t : Table) (id : Key) : Table × Option Member :=
  match t.bucketIndex? id with
  | none => (t, none)
  | some i =>
    match (t.bucket i).find? id with
    | none => (t, none)
    | some m => (t.modifyBucket i (·.erase id), some m)

/-! ### Questions -/

/-- Up to `limit` of the members that `keep` admits, nearest to `target` first. -/
def closestWhere (t : Table) (target : Key) (limit : Nat) (keep : Member → Bool) : List Contact :=
  (sortByDistance target Contact.id ((t.members.filter keep).map (·.contact))).take limit

/-- Up to `limit` members, nearest to `target` first. -/
def closest (t : Table) (target : Key) (limit : Nat) : List Contact :=
  t.closestWhere target limit fun _ => true

/-- Up to `limit` members that are not bad, nearest to `target` first: what other nodes are
told. -/
def closestLive (t : Table) (now : Instant) (target : Key) (limit : Nat) : List Contact :=
  t.closestWhere target limit fun m => m.standing now != .bad

/-- The empty buckets behind the last one that has members, the hindmost first; none in an empty
table. A lookup of the node's own id asks for none of the ids that belong to them. -/
def emptyTail (t : Table) : List (Fin 160) :=
  if t.isEmpty then []
  else (List.finRange 160).reverse.takeWhile fun i => (t.bucket i).members.isEmpty

/-- The buckets with members that have not changed for more than `threshold`. -/
def staleBuckets (t : Table) (now : Instant) (threshold : Duration) : List (Fin 160) :=
  (List.finRange 160).filter fun i =>
    !(t.bucket i).members.isEmpty && decide (elapsed (t.bucket i).changed now > threshold)

end Table

end Mainline.Routing
