import Mainline.Simulation.World

/-!
# Turns

What a task does when it has its turn. An activity goes on until it waits for replies. The jobs of
a crew go on in the order in which they were given something to do, and each that ends makes room
for the next one. A receiver takes everything that has arrived.
-/

namespace Mainline.Simulation

namespace Tick

/-- How late something may be done without a change of its schedule. -/
def tolerance : Duration := 5

/-- Something that has just been done, with the given period. -/
def first (period : Duration) (now : Instant) : Tick :=
  ⟨period, now + period, false⟩

/-- The schedule once a tick is done at `now`: it keeps to multiples of its period, and skips those
that have been missed. -/
def advance (tick : Tick) (now : Instant) : Tick :=
  let next :=
    if now ≤ tick.due + tolerance then tick.due + tick.period
    else now + tick.period - (now - tick.due) % tick.period
  { tick with due := next, armed := false }

end Tick

namespace World

/-! ### Activities -/

/-- Begins queries one after the other. -/
def beginQueries (w : World) (i : Nat) (waker : Waker) :
    List (Address × Krpc.Query) → World × List Slot
  | [] => (w, [])
  | (address, query) :: queries =>
    let (w, slot) := w.beginQuery i waker address query
    let (w, slots) := beginQueries w i waker queries
    (w, slot :: slots)

/-- The replies, if all queries have ended. -/
def replies? : List Slot → Option (List Reply)
  | [] => some []
  | .filled reply :: slots => (replies? slots).map (reply :: ·)
  | .drawing :: _ | .waiting _ :: _ => none

/-- How far an activity has come. -/
inductive Progress (α : Type) where
  | over (a : α)
  | waiting (job : Job α)

/-- Goes on with an activity of a node until it is over or has to wait. -/
def advance {α : Type} (w : World) (i : Nat) (waker : Waker) : Activity α → World × Progress α
  | .done a => (w, .over a)
  | .look k => advance w i waker (k (w.node i) w.now)
  | .put node next => advance (w.setNode i node) i waker next
  | .sample region k =>
    let (key, keys) := region.sample w.entropy.keys
    advance { w with entropy := { w.entropy with keys } } i waker (k key)
  | .report infoHash peers next =>
    let w := match (w.node i).listener with
      | some listener => { w with heard := w.heard ++ [⟨listener, w.now, infoHash, peers⟩] }
      | none => w
    advance w i waker next
  | .ask queries k =>
    let (w, slots) := w.beginQueries i waker queries
    match replies? slots with
    | some replies => advance w i waker (k replies)
    | none => (w, .waiting ⟨slots, k⟩)

/-- Gives each query that has not ended its turn. -/
def turnSlots (w : World) (i : Nat) : List Slot → World × List Slot
  | [] => (w, [])
  | slot :: slots =>
    let (w, slot) := match slot with
      | .drawing => (w, Slot.drawing)
      | .filled reply => (w, Slot.filled reply)
      | .waiting number =>
        match w.turnQuery i number with
        | (w, some reply) => (w, Slot.filled reply)
        | (w, none) => (w, Slot.waiting number)
    let (w, slots) := turnSlots w i slots
    (w, slot :: slots)

/-- Gives a job its turn. -/
def turnJob {α : Type} (w : World) (i : Nat) (waker : Waker) : JobState α → World × Progress α
  | .fresh activity => w.advance i waker activity
  | .waiting job =>
    let (w, slots) := w.turnSlots i job.slots
    match replies? slots with
    | some replies => w.advance i waker (job.resume replies)
    | none => (w, .waiting { job with slots })

/-! ### Crews -/

/-- Has the crew room for one more job? -/
def hasRoom (c : CrewState) : Bool :=
  match c.width with
  | some width => decide (c.active.length < width)
  | none => true

/-- Gives one job of a crew its turn. -/
def turnCrewJob (w : World) (i : Nat) (task : TaskId) (c : CrewState) (number : Nat) :
    World × CrewState :=
  match c.active.lookup number with
  | none => (w, c)
  | some job =>
    match w.turnJob i ⟨task, number⟩ job with
    | (w, .over n) =>
      (w, { c with active := c.active.filter (·.1 != number), sum := c.sum + n })
    | (w, .waiting job) =>
      (w, { c with
        active := c.active.map fun (m, old) => if m = number then (m, .waiting job) else (m, old) })

theorem turnCrewJob_waiting (w : World) (i : Nat) (task : TaskId) (c : CrewState) (number : Nat) :
    (w.turnCrewJob i task c number).2.waiting = c.waiting := by
  unfold turnCrewJob
  split
  · rfl
  · split <;> rfl

/-- Begins jobs while there is room and gives those in `due` their turns, the new ones after the
others. -/
def turnCrew (w : World) (i : Nat) (task : TaskId) (c : CrewState) (due : List Nat) :
    World × CrewState :=
  match _hc : c.waiting, hasRoom c with
  | activity :: waiting, true =>
    turnCrew w i task
      { c with waiting, active := c.active ++ [(c.next, .fresh activity)], next := c.next + 1 }
      (due ++ [c.next])
  | _, _ =>
    match due with
    | [] => (w, c)
    | number :: due =>
      let next := w.turnCrewJob i task c number
      turnCrew next.1 i task next.2 due
  termination_by (c.waiting.length, due.length)
  decreasing_by
    · simp [_hc, Prod.lex_def]
    · simp [turnCrewJob_waiting, Prod.lex_def]

/-- The jobs of a task that have something to do. -/
def takeWoken (w : World) (task : TaskId) : List Nat × World :=
  ((w.woken.filter (·.task == task)).map (·.job),
    { w with woken := w.woken.filter (·.task != task) })

/-- The jobs of a crew that have their turns: those that were given something to do, or all of
them, in the order in which they were begun, if their number is not bounded. -/
def dueJobs (c : CrewState) (woken : List Nat) : List Nat :=
  match c.width with
  | some _ => woken
  | none => c.active.map (·.1)

/-! ### Requests -/

/-- The work on a request, or its result. -/
inductive Outcome where
  | result (result : Result)
  | running (running : Running)

/-- Gives a crew its turn. -/
def turnCrewOf (w : World) (i : Nat) (task : TaskId) (c : CrewState) (finish : Nat → Result)
    (woken : List Nat) : World × Outcome :=
  let (w, c) := w.turnCrew i task c (dueJobs c woken)
  if c.active.isEmpty then (w, .result (finish c.sum)) else (w, .running (.crew c finish))

/-- Gives the work on a request its turn. -/
def turnRunning (w : World) (i : Nat) (task : TaskId) (running : Running) : World × Outcome :=
  let (woken, w) := w.takeWoken task
  match running with
  | .crew c finish => w.turnCrewOf i task c finish woken
  | .single job =>
    match w.turnJob i ⟨task, 0⟩ job with
    | (w, .waiting job) => (w, .running (.single (.waiting job)))
    | (w, .over (.result result)) => (w, .result result)
    | (w, .over (.crew crew finish)) =>
      w.turnCrewOf i task ⟨crew.width, crew.jobs, [], 0, 0⟩ finish []

/-- The queries that a job waits for. -/
def openSlots {α : Type} : JobState α → List Nat
  | .fresh _ => []
  | .waiting job => job.slots.filterMap fun
    | .waiting number => some number
    | .drawing | .filled _ => none

/-- The queries that the work on a request waits for. -/
def openQueries : Running → List Nat
  | .single job => openSlots job
  | .crew c _ => c.active.flatMap fun (_, job) => openSlots job

/-! ### The tasks of a node -/

/-- Takes datagrams at a node, one after the other. -/
def takeDatagrams (w : World) (i : Nat) : List Datagram → World
  | [] => w
  | datagram :: datagrams =>
    let (node, reaction) := (w.node i).receive w.now datagram.source datagram.data
    let w := w.setNode i node
    let w := match reaction.answer with
      | some answer => w.send answer
      | none => w
    takeDatagrams (w.wakeQuery? i reaction.completed) i datagrams

/-- The number of octets of a datagram that are taken at most. -/
def maxDatagram : Nat := 65535

/-- Takes what has arrived at a node, and what arrives from the node itself meanwhile, at most
`passes` times. -/
def takeArrived (w : World) (i : Nat) : (passes : Nat) → World
  | 0 => w
  | passes + 1 =>
    match w.receive (w.node i).address with
    | ([], w) => w
    | (datagrams, w) =>
      let datagrams := datagrams.map fun d => { d with data := d.data.take maxDatagram }
      takeArrived (w.takeDatagrams i datagrams) i passes

/-- The turn of a receiver. -/
def turnReceiver (w : World) (id : TaskId) (i : Nat) : World :=
  let w := w.takeArrived i 4
  if (w.node i).isClosed then w.endNodeTask id i else w

/-- Arms the ticks that have no timer yet. -/
def armTicks (w : World) (id : TaskId) (ticks : Ticks) : World × Ticks :=
  let arm (w : World) (tick : Tick) : World :=
    if tick.armed then w else w.setTimer tick.due (.task id)
  let w := arm (arm (arm w ticks.refresh) ticks.rotation) ticks.lookups
  (w, {
    refresh := { ticks.refresh with armed := true }
    rotation := { ticks.rotation with armed := true }
    lookups := { ticks.lookups with armed := true } })

/-- Changes the secret that a node makes tokens with, and drops its expired announcements. -/
def rotateSecret (w : World) (i : Nat) : World :=
  let node := w.node i
  let (server, secrets) := node.server.rotateSecret w.entropy.secrets
  let w := { w with entropy := { w.entropy with secrets } }
  w.setNode i { node with server := server.expirePeers w.now }

/-- The turn of the task that does what a node does from time to time: it finishes what it is at,
and then begins what is due, at most `rounds` times. -/
def turnUpkeep (w : World) (id : TaskId) (i : Nat) (ticks : Ticks) (body : Option Running) :
    (rounds : Nat) → World
  | 0 => (w.setTask id (.upkeep i ticks body)).enqueue id
  | rounds + 1 =>
    match body with
    | some running =>
      match w.turnRunning i id running with
      | (w, .running running) => w.setTask id (.upkeep i ticks (some running))
      | (w, .result _) => turnUpkeep w id i ticks none rounds
    | none =>
      let settings := (w.node i).settings
      if (w.node i).isClosed then w.endNodeTask id i
      else if ticks.refresh.due ≤ w.now then
        let work := (Request.refreshStale settings.staleAfter).activity
        turnUpkeep w id i { ticks with refresh := ticks.refresh.advance w.now }
          (some (.single (.fresh work))) rounds
      else if ticks.rotation.due ≤ w.now then
        turnUpkeep (w.rotateSecret i) id i { ticks with rotation := ticks.rotation.advance w.now }
          none rounds
      else if ticks.lookups.due ≤ w.now then
        let work : Activity (Ending Result) := do
          return .crew (← Upkeep.lookupRegistered) fun _ => .finished
        turnUpkeep w id i { ticks with lookups := ticks.lookups.advance w.now }
          (some (.single (.fresh work))) rounds
      else
        let (w, ticks) := w.armTicks id ticks
        w.setTask id (.upkeep i ticks none)

/-- What a node does from time to time, and when for the first time. -/
def firstTicks (settings : Settings) (now : Instant) : Ticks where
  refresh := .first settings.refreshInterval now
  rotation := .first settings.tokenRotationInterval now
  lookups := .first settings.peerLookupInterval now

/-! ### Scripted nodes -/

/-- Takes a datagram at a scripted node: a query is logged and answered, anything else is
dropped. -/
def takeAtResponder (w : World) (index : Nat) (r : Responder) (datagram : Datagram) : World :=
  match Krpc.Message.decode datagram.data fun _ => none with
  | .ok ⟨transaction, .query _ query⟩ =>
    let (behaviour, r) := r.behave query
    let w := { w with
      log := w.log ++ [⟨w.now, r.address, datagram.source, query⟩]
      responders := w.responders.set index r }
    match Responder.reply transaction behaviour with
    | none => w
    | some data =>
      let answer : Datagram := ⟨r.address, datagram.source, data⟩
      if r.delay = 0 then w.send answer else (w.spawn (.delayed r.delay none answer)).2
  | _ => w

/-- Takes datagrams at a scripted node, one after the other. -/
def takeAllAtResponder (w : World) (index : Nat) : List Datagram → World
  | [] => w
  | datagram :: datagrams =>
    let w := match w.responders[index]? with
      | some r => w.takeAtResponder index r datagram
      | none => w
    takeAllAtResponder w index datagrams

/-- The turn of a scripted node. -/
def turnResponder (w : World) (index : Nat) : World :=
  match w.responders[index]? with
  | none => w
  | some r =>
    let (datagrams, w) := w.receive r.address
    w.takeAllAtResponder index datagrams

/-- The turn of a datagram that is to be sent after a while. -/
def turnDelayed (w : World) (id : TaskId) (delay : Duration) (due : Option Instant)
    (datagram : Datagram) : World :=
  match due with
  | none => (w.setTask id (.delayed delay (some (w.now + delay)) datagram)).setTimer
      (w.now + delay) (.task id)
  | some due => if due ≤ w.now then (w.endTask id).send datagram else w

/-! ### Errands -/

/-- Ends an errand. -/
def endErrand (w : World) (id : TaskId) (result : Result) : World :=
  let w := w.endTask id
  if w.foreground = some id then
    { w with result := some result, foreground := none, foregroundReady := false }
  else
    match w.names.find? (·.2 == id) with
    | some (name, _) =>
      { w with
        finished := w.finished ++ [⟨name, w.now, result⟩]
        names := w.names.filter (·.2 != id) }
    | none => w

/-- The turn of an errand. -/
def turnErrand (w : World) (id : TaskId) : Errand → World
  | .request i running =>
    match w.turnRunning i id running with
    | (w, .result result) => w.endErrand id result
    | (w, .running running) => w.setTask id (.errand (.request i running))
  | .sleep duration due close =>
    let wakeUp := due.getD (w.now + duration)
    if wakeUp ≤ w.now then
      let w := match close with
        | some i => w.close i
        | none => w
      w.endErrand id .finished
    else if due.isNone then
      (w.setTask id (.errand (.sleep duration (some wakeUp) close))).setTimer wakeUp (.task id)
    else w
  | .untilClosed i => if (w.node i).isClosed then w.endErrand id .finished else w
  | .stop i begun =>
    let w :=
      if begun then w
      else
        let w := w.setTask id (.errand (.stop i true))
        w.close i
    let hadTasks := begun || (w.node i).hasTasks
    let w := w.setNode i { w.node i with hasTasks := false }
    if hadTasks && w.tasks.any (fun (_, task) => isTaskOf i task) then w
    else w.endErrand id .finished

/-- The turn of a task. -/
def turn (w : World) (id : TaskId) : World :=
  match w.tasks.lookup id with
  | none => w
  | some (.receiver i) => w.turnReceiver id i
  | some (.upkeep i ticks body) =>
    w.turnUpkeep id i (ticks.getD (firstTicks (w.node i).settings w.now)) body 64
  | some (.responder index) => w.turnResponder index
  | some (.delayed delay due datagram) => w.turnDelayed id delay due datagram
  | some (.errand errand) => w.turnErrand id errand

end World

end Mainline.Simulation
