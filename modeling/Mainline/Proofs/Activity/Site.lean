import Mainline.Proofs.Activity.Pool
import Mainline.Proofs.Traffic.Course
import Mainline.Simulation.Run

/-!
# A node at work in a world

A node in a world of nodes has any number of tasks under way. When a task has its turn, it goes on
as far as it gets, and what it does to the node it does through the world: it changes the node,
begins queries, and gives those that it waits for their turns. Which task has its turn next and what
arrives in between depends on the network and on the scheduler. Nothing is assumed of them: a `Site`
makes progress by happenings in any order, and whatever goes on in the rest of the world is a
happening, too.

What happens to the queries of the node is always a course of events as `Traffic` knows them, so
whatever is known of such courses holds for a node at work.

## Main results

* `World.traffic_turnQuery`, `World.traffic_beginQuery`, `World.traffic_takeDatagram` and others:
  what the world does to the traffic at a node.
* `World.Proceeds.keep`: what each event of a node's own doing keeps, all of it keeps.
-/

namespace Mainline

/-- The event is about queries that the node has under way, and no datagram is taken in it. -/
inductive Traffic.Event.OnQueries : Traffic.Event → Prop
  | ask (address : Address) (query : Krpc.Query) (draws : ℕ) (stream : ByteStream) :
    OnQueries (.ask address query draws stream)
  | turn (number : ℕ) : OnQueries (.turn number)
  | abandon (number : ℕ) : OnQueries (.abandon number)
  | close : OnQueries .close

/-- The event is the node's **own doing**: no datagram is taken, and no time passes. -/
inductive Traffic.Event.Own : Traffic.Event → Prop
  | onQueries {e : Traffic.Event} (onQueries : e.OnQueries) : Own e
  | work (node : Node) : Own (.work node)

theorem Traffic.Event.OnQueries.table_run {e : Traffic.Event} (h : e.OnQueries)
    (s : Traffic.State) : (e.run s).node.table = s.node.table := by
  cases h <;> rfl

theorem Traffic.Event.Own.now_run {e : Traffic.Event} (h : e.Own) (s : Traffic.State) :
    (e.run s).now = s.now := by
  cases h with
  | onQueries h => cases h <;> rfl
  | work node => rfl

namespace Simulation

namespace World

variable {w w' w'' : World} {i : ℕ}

/-! ### What leaves the nodes alone -/

/-- The nodes, the tasks and the clock are the **same** in both worlds. -/
structure SameNodes (w w' : World) : Prop where
  nodes : w'.nodes = w.nodes
  now : w'.now = w.now
  tasks : w'.tasks = w.tasks
  nextTask : w'.nextTask = w.nextTask

theorem SameNodes.refl (w : World) : SameNodes w w := ⟨rfl, rfl, rfl, rfl⟩

theorem SameNodes.after (h' : SameNodes w' w'') (h : SameNodes w w') : SameNodes w w'' :=
  ⟨h'.nodes.trans h.nodes, h'.now.trans h.now, h'.tasks.trans h.tasks,
    h'.nextTask.trans h.nextTask⟩

theorem sameNodes_enqueue (w : World) (task : TaskId) : SameNodes w (w.enqueue task) := by
  rw [enqueue]
  split
  · exact ⟨rfl, rfl, rfl, rfl⟩
  · split <;> exact ⟨rfl, rfl, rfl, rfl⟩

theorem sameNodes_wake (w : World) (waker : Waker) : SameNodes w (w.wake waker) := by
  rw [wake]
  refine .after (sameNodes_enqueue _ _) ?_
  split <;> exact ⟨rfl, rfl, rfl, rfl⟩

theorem sameNodes_wakeQuery (w : World) (node number : ℕ) :
    SameNodes w (w.wakeQuery node number) := by
  rw [wakeQuery]
  split
  · exact sameNodes_wake _ _
  · exact .refl w

theorem sameNodes_wakeQuery? (w : World) (node : ℕ) (number? : Option ℕ) :
    SameNodes w (w.wakeQuery? node number?) := by
  cases number? with
  | none => exact .refl w
  | some number => exact sameNodes_wakeQuery w node number

theorem sameNodes_send (w : World) (datagram : Datagram) : SameNodes w (w.send datagram) := by
  rw [send]
  split
  · dsimp only
    split
    · exact .after (sameNodes_enqueue _ _) ⟨rfl, rfl, rfl, rfl⟩
    · exact ⟨rfl, rfl, rfl, rfl⟩
  · exact .refl w

theorem sameNodes_foldl {α : Type} (f : World → α → World) (h : ∀ w a, SameNodes w (f w a))
    (as : List α) (w : World) : SameNodes w (as.foldl f w) := by
  induction as generalizing w with
  | nil => exact .refl w
  | cons a as ih => exact (ih (f w a)).after (h w a)

theorem sameNodes_enqueueAll (w : World) (kind : Task → Bool) :
    SameNodes w (w.enqueueAll kind) := by
  rw [enqueueAll]
  exact sameNodes_foldl _ (fun w (p : TaskId × Task) => sameNodes_enqueue w p.1) _ w

/-! ### The traffic at a node -/

/-- A node of the world and its clock. In a world, datagrams are taken at once. -/
def trafficAt (w : World) (i : ℕ) : Traffic.State :=
  ⟨w.node i, w.now, none⟩

theorem SameNodes.traffic (h : SameNodes w w') (i : ℕ) : w'.trafficAt i = w.trafficAt i := by
  rw [trafficAt, trafficAt, node, node, h.nodes, h.now]

theorem traffic_setNode (hi : i < w.nodes.length) (node : Node) :
    (w.setNode i node).trafficAt i = ⟨node, w.now, none⟩ :=
  congrArg (Traffic.State.mk · w.now none) (node_setNode hi node)

theorem length_setNode (w : World) (i : ℕ) (node : Node) :
    (w.setNode i node).nodes.length = w.nodes.length :=
  List.length_set

/-- From one world to the other **nothing but a course** of events has happened at a node. -/
structure Follows (i : ℕ) (w w' : World) (course : List Traffic.Event) : Prop where
  length_eq : w'.nodes.length = w.nodes.length
  traffic_eq : w'.trafficAt i = Traffic.runAll (w.trafficAt i) course

theorem SameNodes.follows (h : SameNodes w w') (i : ℕ) : Follows i w w' [] :=
  ⟨congrArg List.length h.nodes, h.traffic i⟩

theorem Follows.trans {course course' : List Traffic.Event} (h : Follows i w w' course)
    (h' : Follows i w' w'' course') : Follows i w w'' (course ++ course') :=
  ⟨h'.length_eq.trans h.length_eq, by rw [Traffic.runAll_append, ← h.traffic_eq, h'.traffic_eq]⟩

/-- What leaves the nodes alone may happen behind a course. -/
theorem Follows.before {course : List Traffic.Event} (h : Follows i w w' course)
    (same : SameNodes w' w'') : Follows i w w'' course := by
  simpa using h.trans (same.follows i)

/-- A node that is changed as a course changes it. -/
theorem follows_setNode (hi : i < w.nodes.length) {node : Node} {course : List Traffic.Event}
    (happens : Traffic.runAll (w.trafficAt i) course = ⟨node, w.now, none⟩) :
    Follows i w (w.setNode i node) course :=
  ⟨length_setNode w i node, (traffic_setNode hi node).trans happens.symm⟩

/-! ### What happens to the queries of a node -/

/-- The **turn of a query** is an event, and its reply is what the books say. -/
theorem traffic_turnQuery (hi : i < w.nodes.length) (number : ℕ) :
    Follows i w (w.turnQuery i number).1 [.turn number] ∧
      (w.turnQuery i number).2 = ((w.node i).transactions.turn w.now number).1 := by
  have happens : ∀ transactions, ((w.node i).transactions.turn w.now number).2.1 = transactions →
      Traffic.runAll (w.trafficAt i) [.turn number] =
        ⟨{ w.node i with transactions }, w.now, none⟩ := by
    rintro _ rfl
    rfl
  rw [turnQuery]
  rcases hturn : (w.node i).transactions.turn w.now number with ⟨_ | reply, transactions, orphan⟩
  · have hsame : transactions = (w.node i).transactions := by
      rw [Transactions.turn] at hturn
      split at hturn
      · exact (congrArg (·.2.1) hturn).symm
      · split at hturn
        · exact (congrArg (·.2.1) hturn).symm
        · cases hturn
    refine ⟨⟨rfl, ?_⟩, rfl⟩
    rw [happens transactions (congrArg (·.2.1) hturn), hsame]
    rfl
  · refine ⟨?_, rfl⟩
    refine (follows_setNode hi (happens transactions (congrArg (·.2.1) hturn))).before ?_
    exact .after (sameNodes_wakeQuery? _ _ _) ⟨rfl, rfl, rfl, rfl⟩

/-- A query is **dropped**. -/
theorem traffic_abandonQuery (hi : i < w.nodes.length) (number : ℕ) :
    Follows i w (w.abandonQuery i number) [.abandon number] := by
  rw [abandonQuery]
  have dropped : Follows i w (w.setNode i { w.node i with
      transactions := ((w.node i).transactions.abandon number).1 }) [.abandon number] :=
    follows_setNode hi rfl
  refine dropped.before ?_
  exact .after (sameNodes_wakeQuery? _ _ _) ⟨rfl, rfl, rfl, rfl⟩

/-- The node is **shut down**. -/
theorem traffic_close (hi : i < w.nodes.length) : Follows i w (w.close i) [.close] := by
  rw [close]
  split
  · next closed =>
      have closed : (w.node i).transactions.closed = true := closed
      have hsame : (w.node i).transactions.close.1 = (w.node i).transactions := by
        rw [Transactions.close, if_pos closed]
      refine ⟨rfl, ?_⟩
      rw [Traffic.runAll_cons, Traffic.Event.run, Traffic.State.books, trafficAt, hsame]
      rfl
  · have closed : Follows i w (w.setNode i { w.node i with
        transactions := (w.node i).transactions.close.1 }) [.close] := follows_setNode hi rfl
    refine closed.before ?_
    refine .after (sameNodes_foldl _ (fun w number => sameNodes_wakeQuery w i number) _ _) ?_
    exact sameNodes_enqueueAll _ _

/-- **A datagram is taken.** -/
theorem traffic_takeDatagram (hi : i < w.nodes.length) (d : Datagram) :
    Follows i w (w.takeDatagrams i [d]) (Traffic.receive d.source d.data) := by
  simp only [takeDatagrams]
  refine (follows_setNode hi (Traffic.runAll_receive _ d.source d.data)).before ?_
  refine .after (sameNodes_wakeQuery? _ _ _) ?_
  split
  · exact sameNodes_send _ _
  · exact .refl _

/-- How a query is **begun**: it is refused, or goes on drawing, or is entered and has its first
turn. -/
theorem traffic_beginQuery (hi : i < w.nodes.length) (waker : Waker) (address : Address)
    (query : Krpc.Query) :
    (((w.beginQuery i waker address query).2 = .drawing ∨
        ∃ e, (w.beginQuery i waker address query).2 = .filled (.error e)) ∧
      Follows i w (w.beginQuery i waker address query).1 []) ∨
    ∃ w₁ draws stream number transaction,
      Traffic.Asks (w.trafficAt i) (.ask address query draws stream) address query number
          transaction ∧
        Follows i w w₁ [.ask address query draws stream] ∧
        SameNodes (w₁.turnQuery i number).1 (w.beginQuery i waker address query).1 ∧
        (w.beginQuery i waker address query).2 = match (w₁.turnQuery i number).2 with
          | some reply => .filled reply
          | none => .waiting number := by
  rw [beginQuery]
  -- How many draws are made does not matter, and the number is too large to compute with.
  generalize w.entropy.transactions.span = draws
  rcases hbegin : (w.node i).transactions.begin w.now address query.method draws
      w.entropy.transactions with ⟨_ | e | ⟨number, transaction⟩, transactions, stream⟩
  · exact .inl ⟨.inl rfl, rfl, rfl⟩
  · exact .inl ⟨.inr ⟨e, rfl⟩, rfl, rfl⟩
  · let w₁ : World := { w with
      entropy := { w.entropy with transactions := stream }
      awaited := w.awaited ++ [⟨i, number, waker⟩] }
    let w₂ := w₁.setNode i { w.node i with transactions }
    let w₃ := w₂.send ((w.node i).queryDatagram address transaction query)
    refine .inr ⟨w₃, draws, w.entropy.transactions, number, transaction,
      ⟨_, _, rfl, congrArg Prod.fst hbegin⟩, ?_, ?_⟩
    · have happens : Traffic.runAll (w.trafficAt i)
          [.ask address query draws w.entropy.transactions] =
          ⟨{ w.node i with transactions }, w.now, none⟩ := by
        rw [Traffic.runAll_cons, Traffic.runAll_nil, Traffic.Event.run, Traffic.State.books,
          trafficAt, hbegin]
      have entered : Follows i w₁ w₃ [.ask address query draws w.entropy.transactions] :=
        (follows_setNode (w := w₁) hi happens).before (sameNodes_send w₂ _)
      exact ⟨entered.length_eq, entered.traffic_eq⟩
    · dsimp only
      rcases hturned : w₃.turnQuery i number with ⟨w₄, _ | reply⟩
      · exact ⟨⟨rfl, rfl, rfl, rfl⟩, rfl⟩
      · exact ⟨.refl _, rfl⟩

/-! ### A node's own doing -/

/-- A node **proceeds** from one world to the other: a course of events has happened at it, each of
which is of the kind `P`. -/
def Proceeds (P : Traffic.Event → Prop) (i : ℕ) (w w' : World) : Prop :=
  ∃ course, (∀ e ∈ course, P e) ∧ Follows i w w' course

namespace Proceeds

variable {P Q : Traffic.Event → Prop}

theorem of_sameNodes (h : SameNodes w w') : Proceeds P i w w' :=
  ⟨[], nofun, h.follows i⟩

theorem one {e : Traffic.Event} (he : P e) (h : Follows i w w' [e]) : Proceeds P i w w' :=
  ⟨[e], fun _ h' => List.mem_singleton.mp h' ▸ he, h⟩

theorem trans (h : Proceeds P i w w') (h' : Proceeds P i w' w'') : Proceeds P i w w'' := by
  obtain ⟨course, hP, follows⟩ := h
  obtain ⟨course', hP', follows'⟩ := h'
  exact ⟨course ++ course', fun e he => (List.mem_append.mp he).elim (hP e) (hP' e),
    follows.trans follows'⟩

theorem mono (hPQ : ∀ e, P e → Q e) (h : Proceeds P i w w') : Proceeds Q i w w' := by
  obtain ⟨course, hP, follows⟩ := h
  exact ⟨course, fun e he => hPQ e (hP e he), follows⟩

theorem own (h : Proceeds Traffic.Event.OnQueries i w w') : Proceeds Traffic.Event.Own i w w' :=
  h.mono fun _ => .onQueries

/-- The node is still there. -/
theorem lt (h : Proceeds P i w w') (hi : i < w.nodes.length) : i < w'.nodes.length := by
  obtain ⟨_, -, follows⟩ := h
  rwa [follows.length_eq]

/-- **What each event of the kind keeps**, the course keeps. -/
theorem keep {p : Traffic.State → Prop} (h : Proceeds P i w w') (before : p (w.trafficAt i))
    (step : ∀ {s : Traffic.State} {e : Traffic.Event}, P e → p s → p (e.run s)) :
    p (w'.trafficAt i) := by
  obtain ⟨course, hP, follows⟩ := h
  rw [follows.traffic_eq]
  clear follows
  induction course using List.reverseRecOn with
  | nil => exact before
  | append_singleton course e ih =>
      obtain ⟨hcourse, he⟩ := List.forall_mem_append.mp hP
      rw [Traffic.runAll_concat]
      exact step (he e (List.mem_singleton_self e)) (ih hcourse)

/-- The books stay sound. -/
theorem sound (h : Proceeds P i w w') (sound : (w.node i).transactions.Sound) :
    (w'.node i).transactions.Sound :=
  h.keep (p := fun s => s.books.Sound) sound fun _ hs => Traffic.sound_run hs _

/-- What is about queries leaves the routing table alone. -/
theorem table_eq (h : Proceeds Traffic.Event.OnQueries i w w') :
    (w'.node i).table = (w.node i).table :=
  h.keep (p := fun s => s.node.table = (w.node i).table) rfl fun he hs => (he.table_run _).trans hs

/-- No time passes. -/
theorem now_eq (h : Proceeds Traffic.Event.Own i w w') : w'.now = w.now :=
  h.keep (p := fun s => s.now = w.now) rfl fun he hs => (he.now_run _).trans hs

end Proceeds

theorem proceeds_turnQuery (hi : i < w.nodes.length) (number : ℕ) :
    Proceeds Traffic.Event.OnQueries i w (w.turnQuery i number).1 :=
  .one (.turn number) (traffic_turnQuery hi number).1

/-- A query is **begun**, and perhaps has ended already. -/
theorem proceeds_beginQuery (hi : i < w.nodes.length) (waker : Waker) (address : Address)
    (query : Krpc.Query) :
    Proceeds Traffic.Event.OnQueries i w (w.beginQuery i waker address query).1 := by
  obtain ⟨-, follows⟩ | ⟨w₁, draws, stream, number, transaction, -, follows, same, -⟩ :=
    traffic_beginQuery hi waker address query
  · exact ⟨[], nofun, follows⟩
  · have entered : Proceeds Traffic.Event.OnQueries i w w₁ :=
      .one (.ask address query draws stream) follows
    exact (entered.trans (proceeds_turnQuery (entered.lt hi) number)).trans (.of_sameNodes same)

theorem proceeds_beginQueries (hi : i < w.nodes.length) (waker : Waker)
    (queries : List (Address × Krpc.Query)) :
    Proceeds Traffic.Event.OnQueries i w (w.beginQueries i waker queries).1 := by
  induction queries generalizing w with
  | nil => exact .of_sameNodes (.refl w)
  | cons p queries ih =>
      have begun := proceeds_beginQuery hi waker p.1 p.2
      rw [beginQueries]
      exact begun.trans (ih (begun.lt hi))

/-- The queries that a job waits for have their turns. -/
theorem proceeds_turnSlots (hi : i < w.nodes.length) (slots : List Slot) :
    Proceeds Traffic.Event.OnQueries i w (w.turnSlots i slots).1 := by
  induction slots generalizing w with
  | nil => exact .of_sameNodes (.refl w)
  | cons slot slots ih =>
      cases slot with
      | drawing | filled => exact ih hi
      | waiting number =>
          have turned := proceeds_turnQuery hi number
          have others := turned.trans (ih (turned.lt hi))
          rw [turnSlots]
          rcases hturn : w.turnQuery i number with ⟨w', _ | reply⟩
          all_goals
            rw [hturn] at others
            exact others

theorem proceeds_abandonAll (hi : i < w.nodes.length) (numbers : List ℕ) :
    Proceeds Traffic.Event.OnQueries i w
      (numbers.foldl (fun w number => w.abandonQuery i number) w) := by
  induction numbers generalizing w with
  | nil => exact .of_sameNodes (.refl w)
  | cons number numbers ih =>
      have first : Proceeds Traffic.Event.OnQueries i w (w.abandonQuery i number) :=
        .one (.abandon number) (traffic_abandonQuery hi number)
      exact first.trans (ih (first.lt hi))

theorem proceeds_close (hi : i < w.nodes.length) :
    Proceeds Traffic.Event.OnQueries i w (w.close i) :=
  .one .close (traffic_close hi)

/-- The activity changes the node, but not its queries. -/
theorem proceeds_setNode (hi : i < w.nodes.length) {node : Node}
    (kept : node.transactions = (w.node i).transactions) :
    Proceeds Traffic.Event.Own i w (w.setNode i node) := by
  refine .one (.work node) (follows_setNode hi ?_)
  rw [Traffic.runAll_cons, Traffic.runAll_nil, Traffic.Event.run, Traffic.State.books, trafficAt,
    ← kept]

end World

/-! ### Sites -/

/-- A node in a world, with the tasks that it has under way. -/
structure Site where
  world : World
  /-- The number of the node. -/
  index : ℕ
  jobs : List (JobState Unit)

namespace Site

/-- The node. -/
def node (s : Site) : Node :=
  s.world.node s.index

/-- The traffic at the node. -/
def traffic (s : Site) : Traffic.State :=
  s.world.trafficAt s.index

/-- A node that has just been added to a world. -/
def start (w : World) (localId : Key) (address : Address) (settings : Settings) : Site :=
  ⟨w.addNode localId address settings, w.nodes.length, []⟩

end Site

/-- Something that happens at a node or around it. -/
inductive Happening : Type 1 where
  /-- The node is given something to do. -/
  | begin (work : Work)
  /-- A task has a turn. -/
  | turn (task : ℕ) (waker : Waker)
  /-- A task is dropped. -/
  | abandon (task : ℕ)
  /-- A datagram arrives. -/
  | receive (source : Address) (data : Bytes)
  /-- The node is shut down. -/
  | close
  /-- The node changes in any way that leaves its routing table and its queries alone. -/
  | aside (change : Node → Node)
  /-- The world changes in any way that leaves the node alone. -/
  | elsewhere (change : World → World)
  | wait (duration : Duration)

/-- What is left to do for a task after its turn. -/
def World.Progress.rest : World.Progress Unit → JobState Unit
  | .over a => .fresh (.done a)
  | .waiting job => .waiting job

namespace Happening

/-- The site after something has happened. -/
def run (s : Site) : Happening → Site
  | begin work => { s with jobs := s.jobs ++ [.fresh work.activity] }
  | turn task waker =>
    match s.jobs[task]? with
    | none => s
    | some job =>
      let (world, progress) := s.world.turnJob s.index waker job
      { s with world, jobs := s.jobs.set task progress.rest }
  | abandon task =>
    match s.jobs[task]? with
    | none => s
    | some job =>
      let world := (World.openSlots job).foldl (fun w number => w.abandonQuery s.index number) s.world
      { s with world, jobs := s.jobs.eraseIdx task }
  | receive source data =>
    { s with world := s.world.takeDatagrams s.index [⟨source, s.node.address, data⟩] }
  | close => { s with world := s.world.close s.index }
  | aside change =>
    let node := { change s.node with table := s.node.table, transactions := s.node.transactions }
    { s with world := s.world.setNode s.index node }
  | elsewhere change =>
    let world := change s.world
    if s.index < world.nodes.length then
      { s with world := { world with now := s.world.now }.setNode s.index s.node }
    else s
  | wait duration => { s with world.now := s.world.now + duration }

/-- It is the same node after something has happened. -/
theorem index_run (s : Site) (e : Happening) : (e.run s).index = s.index := by
  cases e with
  | begin | receive | close | aside | wait => rfl
  | turn | abandon =>
      rw [run]
      split <;> rfl
  | elsewhere =>
      rw [run]
      split <;> rfl

/-- The site after several things have happened. -/
def runAll (s : Site) (course : List Happening) : Site :=
  course.foldl run s

theorem runAll_append (s : Site) (course course' : List Happening) :
    runAll s (course ++ course') = runAll (runAll s course) course' :=
  List.foldl_append

theorem runAll_concat (s : Site) (course : List Happening) (e : Happening) :
    runAll s (course ++ [e]) = e.run (runAll s course) := by
  simp [runAll]

/-- What goes on in the rest of the world leaves the site as it is. -/
theorem run_elsewhere {s : Site} (hi : s.index < s.world.nodes.length) (change : World → World) :
    ((elsewhere change).run s).index < ((elsewhere change).run s).world.nodes.length ∧
      ((elsewhere change).run s).traffic = s.traffic ∧ ((elsewhere change).run s).jobs = s.jobs := by
  rw [run]
  split
  · next hi' =>
      let other : World := { change s.world with now := s.world.now }
      refine ⟨?_, World.traffic_setNode (w := other) hi' s.node, rfl⟩
      rw [World.length_setNode]
      exact hi'
  · exact ⟨hi, rfl, rfl⟩

end Happening

end Simulation

end Mainline
