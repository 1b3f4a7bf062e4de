import Mainline.Network
import Mainline.Request
import Mainline.Simulation.Responder

/-!
# A world of nodes

Nodes, scripted nodes and bare sockets share a network in memory and a clock. What goes on is
divided into tasks. A task that has something to do stands in a queue, gets its turn, does what it
can at once, and waits again; what it waits for puts it back into the queue. Time passes only when
no task has anything to do, and then jumps to the instant of the earliest timer.

This module holds the state of the world and the effects that a turn may have on it.
-/

namespace Mainline.Simulation

/-- Tasks are numbered in the order in which they are begun. -/
abbrev TaskId := Nat

/-- Who is to have a turn: a task and, if its work is done by a crew, one of the crew's jobs. -/
structure Waker where
  task : TaskId
  job : Nat
deriving DecidableEq

/-- What a timer is for. -/
inductive Alarm where
  /-- The deadline of a query of a node. -/
  | deadline (node number : Nat)
  /-- The end of a task's sleep. -/
  | task (task : TaskId)
deriving DecidableEq

/-- Timers that are due at the same instant go off in the order in which they were set. -/
structure Timer where
  due : Instant
  alarm : Alarm

/-- A query that somebody waits for. -/
structure Awaited where
  node : Nat
  number : Nat
  waker : Waker

/-! ### Work under way -/

/-- A query of a job: not ended yet, or ended with a reply. -/
inductive Slot where
  /-- All transaction ids that it will ever draw are taken, and it goes on drawing. -/
  | drawing
  | waiting (number : Nat)
  | filled (reply : Reply)

/-- An activity that waits for replies. -/
structure Job (α : Type) where
  slots : List Slot
  resume : List Reply → Activity α

/-- An activity that has not begun, or waits for replies. -/
inductive JobState (α : Type) where
  | fresh (activity : Activity α)
  | waiting (job : Job α)

/-- A crew at work. -/
structure CrewState where
  width : Option Nat
  /-- The activities that have not begun. -/
  waiting : List (Activity Nat)
  /-- The jobs under way, by number. -/
  active : List (Nat × JobState Nat)
  /-- The number of the next job. -/
  next : Nat
  /-- The sum of the results so far. -/
  sum : Nat

/-- The work on a request: an activity, and then perhaps a crew. -/
inductive Running where
  | single (job : JobState (Ending Result))
  | crew (state : CrewState) (finish : Nat → Result)

/-! ### Tasks -/

/-- Something that is due again and again. -/
structure Tick where
  period : Duration
  due : Instant
  /-- Has a timer been set for it? -/
  armed : Bool

/-- What a node does from time to time. -/
structure Ticks where
  refresh : Tick
  rotation : Tick
  lookups : Tick

/-- Something that somebody waits for, or that goes on in the background under a name. -/
inductive Errand where
  /-- A request to a node. -/
  | request (node : Nat) (running : Running)
  /-- Letting time pass; shuts a node down afterwards, if one is named. -/
  | sleep (duration : Duration) (due : Option Instant) (close : Option Nat)
  /-- Waiting for a node to be shut down. -/
  | untilClosed (node : Nat)
  /-- Shutting a node down and waiting for its tasks to end. -/
  | stop (node : Nat) (begun : Bool)

inductive Task where
  /-- Takes the datagrams that arrive at a node. -/
  | receiver (node : Nat)
  /-- Does what a node does from time to time. -/
  | upkeep (node : Nat) (ticks : Option Ticks) (body : Option Running)
  /-- Takes the datagrams that arrive at a scripted node. -/
  | responder (index : Nat)
  /-- Sends a datagram after a while. -/
  | delayed (delay : Duration) (due : Option Instant) (datagram : Datagram)
  | errand (errand : Errand)

/-! ### The world -/

/-- A query that a scripted node has taken. -/
structure LogEntry where
  time : Instant
  responder : Address
  source : Address
  query : Krpc.Query

/-- Peers that a listener has been told of. -/
structure Hearing where
  listener : String
  time : Instant
  infoHash : Key
  peers : List Address

/-- A background errand that has ended. -/
structure Finished where
  name : String
  time : Instant
  result : Result

structure World where
  now : Instant
  entropy : Entropy
  network : Network
  nodes : List Node
  responders : List Responder
  /-- The tasks that read what arrives at an address. -/
  readers : List (Address × TaskId)
  tasks : List (TaskId × Task)
  nextTask : TaskId
  /-- The background errands by name. -/
  names : List (String × TaskId)
  /-- The tasks that have something to do, in the order of their turns. -/
  ready : List TaskId
  /-- The errand that is being waited for. It does not stand in the queue. -/
  foreground : Option TaskId
  foregroundReady : Bool
  /-- How many turns the queue has before the errand that is being waited for has one. -/
  turnsLeft : Nat
  /-- What put the tasks into the queue, in order. -/
  woken : List Waker
  awaited : List Awaited
  /-- All timers, in the order in which they were set. -/
  timers : List Timer
  log : List LogEntry
  heard : List Hearing
  finished : List Finished
  /-- The result of the errand that is being waited for, once it has ended. -/
  result : Option Result

namespace World

/-- A world with nothing in it. -/
def empty (entropy : Entropy) : World where
  now := 0
  entropy
  network := .empty
  nodes := []
  responders := []
  readers := []
  tasks := []
  nextTask := 0
  names := []
  ready := []
  foreground := none
  foregroundReady := false
  turnsLeft := 0
  woken := []
  awaited := []
  timers := []
  log := []
  heard := []
  finished := []
  result := none

/-- A node that stands for one that does not exist. -/
def nobody : Node :=
  (Node.create default default {} 0 ⟨[], 0⟩).1

/-- A node by its number. -/
def node (w : World) (i : Nat) : Node :=
  w.nodes.getD i nobody

def setNode (w : World) (i : Nat) (node : Node) : World :=
  { w with nodes := w.nodes.set i node }

/-! ### Waking tasks -/

/-- Puts a task into the queue, unless it stands there already. -/
def enqueue (w : World) (task : TaskId) : World :=
  if w.foreground = some task then { w with foregroundReady := true }
  else if w.ready.contains task then w
  else { w with ready := w.ready ++ [task] }

/-- Gives a job of a task something to do. -/
def wake (w : World) (waker : Waker) : World :=
  let w := if w.woken.contains waker then w else { w with woken := w.woken ++ [waker] }
  w.enqueue waker.task

/-- Gives whoever waits for a query something to do. -/
def wakeQuery (w : World) (node number : Nat) : World :=
  match w.awaited.find? fun a => a.node == node && a.number == number with
  | some a => w.wake a.waker
  | none => w

/-- Gives whoever waits for a query, if there is one, something to do. -/
def wakeQuery? (w : World) (node : Nat) : Option Nat → World
  | some number => w.wakeQuery node number
  | none => w

/-- Sets a timer. -/
def setTimer (w : World) (due : Instant) (alarm : Alarm) : World :=
  { w with timers := w.timers ++ [⟨due, alarm⟩] }

/-- Drops a timer. -/
def dropTimer (w : World) (alarm : Alarm) : World :=
  { w with timers := w.timers.filter (·.alarm != alarm) }

/-! ### Datagrams -/

/-- Sends a datagram, and wakes who reads it. -/
def send (w : World) (datagram : Datagram) : World :=
  if w.network.isBound datagram.target then
    let w := { w with network := w.network.send datagram }
    match w.readers.lookup datagram.target with
    | some task => w.enqueue task
    | none => w
  else w

/-- Is the address that of a bare socket: bound, but neither by a node nor by a scripted one? -/
def isBare (w : World) (address : Address) : Bool :=
  w.network.isBound address && !w.nodes.any (·.address == address) &&
    !w.responders.any (·.address == address)

/-- Gives up a bare socket; says whether there was one. -/
def unbind (w : World) (address : Address) : Bool × World :=
  if w.isBare address then (true, { w with network := w.network.unbind address }) else (false, w)

/-- Reads everything that waits at an address. -/
def receive (w : World) (address : Address) : List Datagram × World :=
  let (datagrams, network) := w.network.receive address
  (datagrams, { w with network })

/-! ### Queries -/

/-- Nobody waits for a query any longer. -/
def forgetQuery (w : World) (node number : Nat) : World :=
  { w.dropTimer (.deadline node number) with
    awaited := w.awaited.filter fun a => !(a.node == node && a.number == number) }

/-- Gives a query its turn: its reply, if it ends. -/
def turnQuery (w : World) (i number : Nat) : World × Option Reply :=
  let node := w.node i
  match node.transactions.turn w.now number with
  | (none, _, _) => (w, none)
  | (some reply, transactions, orphan) =>
    let w := (w.setNode i { node with transactions }).forgetQuery i number
    (w.wakeQuery? i orphan, some reply)

/-- Begins a query and gives it its first turn. -/
def beginQuery (w : World) (i : Nat) (waker : Waker) (address : Address) (query : Krpc.Query) :
    World × Slot :=
  let node := w.node i
  let draws := w.entropy.transactions
  match node.transactions.begin w.now address query.method draws.span draws with
  | (none, _, stream) => ({ w with entropy := { w.entropy with transactions := stream } }, .drawing)
  | (some (.error e), _, stream) =>
    ({ w with entropy := { w.entropy with transactions := stream } }, .filled (.error e))
  | (some (.ok (number, transaction)), transactions, stream) =>
    let w := { w with
      entropy := { w.entropy with transactions := stream }
      awaited := w.awaited ++ [Awaited.mk i number waker] }
    let w := w.setNode i { node with transactions }
    let w := w.send (node.queryDatagram address transaction query)
    match w.turnQuery i number with
    | (w, some reply) => (w, .filled reply)
    | (w, none) =>
      (w.setTimer (w.now + transactions.timeout) (.deadline i number), .waiting number)

/-- Drops a query before its end. -/
def abandonQuery (w : World) (i number : Nat) : World :=
  let node := w.node i
  let (transactions, orphan) := node.transactions.abandon number
  ((w.setNode i { node with transactions }).forgetQuery i number).wakeQuery? i orphan

/-! ### Beginning and ending tasks -/

/-- Begins a task, which has its first turn when the queue gets to it. -/
def spawn (w : World) (task : Task) : TaskId × World :=
  let id := w.nextTask
  (id, { w with
    tasks := w.tasks ++ [(id, task)]
    nextTask := id + 1
    ready := w.ready ++ [id] })

/-- The task goes on in a new state. -/
def setTask (w : World) (id : TaskId) (task : Task) : World :=
  { w with tasks := w.tasks.map fun (i, t) => if i = id then (i, task) else (i, t) }

/-- Does the task belong to the background of a node? -/
def isTaskOf (node : Nat) : Task → Bool
  | .receiver i => i == node
  | .upkeep i _ _ => i == node
  | _ => false

/-- Does the task wait for a node to be shut down? -/
def awaitsClose (node : Nat) : Task → Bool
  | .receiver i => i == node
  | .upkeep i _ _ => i == node
  | .errand (.untilClosed i) => i == node
  | _ => false

/-- Does the task wait for the background tasks of a node to end? -/
def awaitsEnd (node : Nat) : Task → Bool
  | .errand (.stop i _) => i == node
  | _ => false

/-- Puts all tasks of a kind into the queue. -/
def enqueueAll (w : World) (kind : Task → Bool) : World :=
  (w.tasks.filter fun (_, task) => kind task).foldl (fun w (id, _) => w.enqueue id) w

/-- Ends a task. -/
def endTask (w : World) (id : TaskId) : World :=
  let w := w.dropTimer (.task id)
  { w with
    tasks := w.tasks.filter (·.1 != id)
    ready := w.ready.filter (· != id)
    woken := w.woken.filter (·.task != id)
    readers := w.readers.filter (·.2 != id) }

/-- Ends a background task of a node. -/
def endNodeTask (w : World) (id : TaskId) (node : Nat) : World :=
  (w.endTask id).enqueueAll (awaitsEnd node)

/-- Shuts a node down. -/
def close (w : World) (i : Nat) : World :=
  let node := w.node i
  if node.isClosed then w
  else
    let (transactions, numbers) := node.transactions.close
    let w := (w.setNode i { node with transactions }).enqueueAll (awaitsClose i)
    numbers.foldl (fun w number => w.wakeQuery i number) w

end World

end Mainline.Simulation
