import Mainline.Simulation.Turn

/-!
# The course of events

Whoever watches a world takes one step after the other: begins something and waits for it, begins
something in the background, or does something at once. After each step everything happens that can
happen without time passing.
-/

namespace Mainline.Simulation

namespace World

/-- How many turns the queue has at most while the errand that is being waited for has none. -/
def turnsInARow : Nat := 61

/-- The next turn. The tasks in the queue have theirs one after the other. The errand that is being
waited for has its own when the queue is empty, after `turnsInARow` turns of others, and when time
has passed. -/
def next? (w : World) : Option World :=
  match w.ready, w.turnsLeft with
  | id :: ready, left + 1 => some ({ w with ready, turnsLeft := left }.turn id)
  | queue, _ =>
    match w.foreground, w.foregroundReady, queue with
    | some id, true, _ =>
      some ({ w with foregroundReady := false, turnsLeft := turnsInARow }.turn id)
    | _, _, id :: ready => some ({ w with ready, turnsLeft := turnsInARow - 1 }.turn id)
    | _, _, [] => none

/-- Gives turns until nobody has anything to do, at most `turns` of them. -/
def settleWithin : (turns : Nat) → World → World
  | 0, w => w
  | turns + 1, w =>
    match w.next? with
    | some w => settleWithin turns w
    | none => w

/-- A number of turns that no course of events reaches. -/
def manyTurns : Nat := 1000000000

/-- Gives turns until nobody has anything to do. -/
def settle (w : World) : World :=
  settleWithin manyTurns { w with turnsLeft := 0 }

/-- The instant of the earliest timer. -/
def nextDue? (w : World) : Option Instant :=
  (w.timers.map (·.due)).min?

/-- Sets off a timer. -/
def ring (w : World) : Alarm → World
  | .deadline node number => w.wakeQuery node number
  | .task task => w.enqueue task

/-- Lets time pass to the instant of the earliest timer and sets off all timers that are due. -/
def pass? (w : World) : Option World :=
  match w.nextDue? with
  | none => none
  | some due =>
    let now := max w.now due
    let w := { w with now }
    let rings := (w.timers.filter (·.due ≤ now)).mergeSort fun a b => decide (a.due ≤ b.due)
    let w := { w with timers := w.timers.filter fun t => decide (now < t.due) }
    some (rings.foldl (fun w timer => w.ring timer.alarm) w)

/-- Lets things happen and time pass until the errand that is being waited for has ended. -/
def waitWithin : (passes : Nat) → World → World
  | 0, w => w
  | passes + 1, w =>
    let w := w.settle
    if w.result.isSome then w
    else
      match w.pass? with
      | some w => waitWithin passes w
      | none => w

/-- Runs an errand and waits for its end. -/
def perform (w : World) (errand : Errand) : World × Option Result :=
  let id := w.nextTask
  let w := { w with
    tasks := w.tasks ++ [(id, .errand errand)]
    nextTask := id + 1
    foreground := some id
    foregroundReady := true
    result := none }
  let w := waitWithin manyTurns w
  ({ w with foreground := none, result := none }, w.result)

/-- Begins an errand in the background, under a name. -/
def begin (w : World) (name : String) (errand : Errand) : World :=
  let (id, w) := w.spawn (.errand errand)
  { w with names := w.names ++ [(name, id)] }.settle

/-- Drops a background errand. -/
def drop (w : World) (name : String) : World :=
  match w.names.lookup name with
  | none => w
  | some id =>
    match w.tasks.lookup id with
    | some (.errand errand) =>
      let w := match errand with
        | .request i running =>
          (openQueries running).foldl (fun (w : World) number => w.abandonQuery i number) w
        | _ => w
      ({ w.endTask id with names := w.names.filter (·.2 != id) }).settle
    | _ => w

/-- A request as an errand. -/
def request (i : Nat) (request : Request) : Errand :=
  .request i (.single (.fresh request.activity))

/-! ### Setting up -/

/-- Adds a node at a free address. -/
def addNode (w : World) (localId : Key) (address : Address) (settings : Settings) : World :=
  let (node, secrets) := Node.create localId address settings w.now w.entropy.secrets
  let network := (w.network.bind address).toOption.getD w.network
  { w with network, nodes := w.nodes ++ [node], entropy := { w.entropy with secrets } }

/-- Adds a scripted node at a free address. -/
def addResponder (w : World) (r : Responder) : World :=
  let index := w.responders.length
  let network := (w.network.bind r.address).toOption.getD w.network
  let (id, w) := { w with network, responders := w.responders ++ [r] }.spawn (.responder index)
  { w with readers := w.readers ++ [(r.address, id)] }

/-- Sets a node to work in the background. -/
def start (w : World) (i : Nat) : Except Error World :=
  let node := w.node i
  if node.isClosed then .error .shutdown
  else if node.hasTasks then .ok w
  else
    let w := w.setNode i { node with hasTasks := true }
    let (receiver, w) := w.spawn (.receiver i)
    let w := { w with readers := w.readers ++ [(node.address, receiver)] }
    .ok (w.spawn (.upkeep i none none)).2

/-- Keeps a torrent in mind; a node at work looks up its peers at once. -/
def register (w : World) (i : Nat) (infoHash : Key) : World :=
  let (node, isNew) := (w.node i).register infoHash
  let w := w.setNode i node
  if isNew && node.isRunning then
    (w.spawn (.errand (request i (.getPeers infoHash)))).2
  else w

end World

end Mainline.Simulation
