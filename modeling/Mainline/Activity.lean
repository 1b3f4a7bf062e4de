import Mainline.Node

/-!
# Activities of a node

An activity is what a node does from beginning to end for one purpose, such as a lookup. It works
on the node in steps that nothing interrupts; only while it waits for the replies to queries may
others work on the node too. An activity is kept as the tree of all its courses: what it does next
depends on what it finds and on the replies it gets.
-/

namespace Mainline

/-- An activity that ends with an `α`. -/
inductive Activity (α : Type) where
  /-- It is over. -/
  | done (a : α)
  /-- It looks at the node and at the clock. -/
  | look (k : Node → Instant → Activity α)
  /-- It leaves the node in a new state. -/
  | put (node : Node) (next : Activity α)
  /-- It draws a random key of a region. -/
  | sample (region : Prefix) (k : Key → Activity α)
  /-- It tells whoever listens of the peers of a torrent. -/
  | report (infoHash : Key) (peers : List Address) (next : Activity α)
  /-- It sends queries all at once and waits for all replies, which it gets in the same order. -/
  | ask (queries : List (Address × Krpc.Query)) (k : List Reply → Activity α)

namespace Activity

/-- One activity after the other. -/
def bind {α β : Type} : Activity α → (α → Activity β) → Activity β
  | done a, f => f a
  | look k, f => look fun node now => (k node now).bind f
  | put node next, f => put node (next.bind f)
  | sample region k, f => sample region fun key => (k key).bind f
  | report infoHash peers next, f => report infoHash peers (next.bind f)
  | ask queries k, f => ask queries fun replies => (k replies).bind f

instance : Monad Activity where
  pure := done
  bind := bind

/-- An activity that is over adds nothing behind another. -/
theorem bind_done {α : Type} (x : Activity α) : x.bind done = x := by
  induction x with
  | done a => rfl
  | look k ih => simp [bind, ih]
  | put node next ih => simp [bind, ih]
  | sample region k ih => simp [bind, ih]
  | report infoHash peers next ih => simp [bind, ih]
  | ask queries k ih => simp [bind, ih]

/-- Of three activities in a row it does not matter which two are taken together. -/
theorem bind_assoc {α β γ : Type} (x : Activity α) (f : α → Activity β) (g : β → Activity γ) :
    (x.bind f).bind g = x.bind fun a => (f a).bind g := by
  induction x with
  | done a => rfl
  | look k ih => simp [bind, ih]
  | put node next ih => simp [bind, ih]
  | sample region k ih => simp [bind, ih]
  | report infoHash peers next ih => simp [bind, ih]
  | ask queries k ih => simp [bind, ih]

instance : LawfulMonad Activity :=
  .mk' Activity bind_done (fun _ _ => rfl) bind_assoc

/-- The node as it is now. -/
def node : Activity Node :=
  look fun node _ => done node

/-- The node and the time. -/
def nodeAndTime : Activity (Node × Instant) :=
  look fun node now => done (node, now)

/-- Changes the node. -/
def modify (f : Node → Instant → Node) : Activity Unit :=
  look fun node now => put (f node now) (done ())

/-- Draws a random key of a region. -/
def sampleKey (region : Prefix) : Activity Key :=
  sample region done

/-- Tells whoever listens of the peers of a torrent. -/
def reportPeers (infoHash : Key) (peers : List Address) : Activity Unit :=
  report infoHash peers (done ())

/-- Sends queries all at once and waits for all replies. -/
def askAll (queries : List (Address × Krpc.Query)) : Activity (List Reply) :=
  ask queries done

/-- Sends one query and waits for its reply. -/
def query (address : Address) (query : Krpc.Query) : Activity Reply :=
  ask [(address, query)] fun
    | reply :: _ => done reply
    | [] => done (.error .shutdown)

/-- The id that the node at an address answers a ping with. -/
def ping (address : Address) : Activity (Except Error Key) := do
  return (← query address .ping).map (·.id)

/-- Does the node at a contact's address answer a ping, and with the contact's id? -/
def probe (contact : Contact) : Activity Bool := do
  match ← ping contact.address with
  | .ok id => return id == contact.id
  | .error _ => return false

/-- Asks questionable members in turn until the offer of `node` is decided. -/
def insertAsking (node : Member) : List Contact → Activity Routing.Outcome
  | [] => pure .rejected
  | asked :: questionable => do
    let answered ← probe asked
    let (owner, now) ← nodeAndTime
    let (table, outcome?) := owner.table.resume now node asked.id answered
    modify fun owner _ => { owner with table }
    match outcome? with
    | some outcome => return outcome
    | none => insertAsking node questionable

/-- Offers a node to the routing table, asking questionable members if need be. -/
def insert (node : Member) : Activity Routing.Outcome := do
  let (owner, now) ← nodeAndTime
  let (table, placement) := owner.table.place now node
  modify fun owner _ => { owner with table }
  match placement with
  | .settled outcome => return outcome
  | .contested questionable => insertAsking node questionable

end Activity

end Mainline
