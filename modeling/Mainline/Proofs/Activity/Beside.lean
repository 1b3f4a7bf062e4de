import Mainline.Proofs.Activity.Site

/-!
# What a node's work leaves alone

Whatever a node does in a world of nodes, it changes no other node, and neither the tasks nor the
clock. What it sends waits at an address until a task has its turn, and whom it wakes only stands in
the queue from then on.

## Main results

* `World.beside_turnJob`: a job that has its turn works beside the other nodes.
* `World.beside_turnRunning`: so does everything that is done for a request.
* `World.beside_takeArrived`, `World.beside_close`: so does a node that takes datagrams, or is shut
  down.
-/

namespace Mainline.Simulation.World

variable {w w' w'' : World} {n : ℕ}

/-- From one world to the other a node has worked **beside** all others: these, the tasks and the
clock are as before. -/
structure Beside (n : ℕ) (w w' : World) : Prop where
  length_eq : w'.nodes.length = w.nodes.length
  node_eq : ∀ i, i ≠ n → w'.node i = w.node i
  now_eq : w'.now = w.now
  tasks_eq : w'.tasks = w.tasks
  nextTask_eq : w'.nextTask = w.nextTask

theorem SameNodes.beside (h : SameNodes w w') (n : ℕ) : Beside n w w' := by
  refine ⟨congrArg List.length h.nodes, fun i _ => ?_, h.now, h.tasks, h.nextTask⟩
  rw [node, node, h.nodes]

namespace Beside

theorem refl (n : ℕ) (w : World) : Beside n w w :=
  (SameNodes.refl w).beside n

theorem trans (h : Beside n w w') (h' : Beside n w' w'') : Beside n w w'' :=
  ⟨h'.length_eq.trans h.length_eq, fun i hi => (h'.node_eq i hi).trans (h.node_eq i hi),
    h'.now_eq.trans h.now_eq, h'.tasks_eq.trans h.tasks_eq, h'.nextTask_eq.trans h.nextTask_eq⟩

theorem of_eq (nodes : w'.nodes = w.nodes) (now : w'.now = w.now) (tasks : w'.tasks = w.tasks)
    (nextTask : w'.nextTask = w.nextTask) : Beside n w w' :=
  SameNodes.beside ⟨nodes, now, tasks, nextTask⟩ n

theorem after (h' : Beside n w' w'') (h : Beside n w w') : Beside n w w'' :=
  h.trans h'

/-- What leaves the nodes alone may happen behind the work of a node. -/
theorem before (h : Beside n w w') (same : SameNodes w' w'') : Beside n w w'' :=
  h.trans (same.beside n)

/-- What is done for each element of a list, one after the other. -/
theorem foldl {α : Type} {f : World → α → World} (h : ∀ w a, Beside n w (f w a)) (as : List α)
    (w : World) : Beside n w (as.foldl f w) := by
  induction as generalizing w with
  | nil => exact .refl n w
  | cons a as ih => exact (h w a).trans (ih (f w a))

end Beside

theorem beside_setNode (w : World) (n : ℕ) (node : Node) : Beside n w (w.setNode n node) := by
  refine ⟨length_setNode w n node, fun i hi => ?_, rfl, rfl, rfl⟩
  rw [World.node, World.node, List.getD_eq_getElem?_getD, List.getD_eq_getElem?_getD, setNode,
    List.getElem?_set_ne hi.symm]

/-! ### Queries -/

theorem beside_turnQuery (w : World) (n number : ℕ) : Beside n w (w.turnQuery n number).1 := by
  rw [turnQuery]
  split
  · exact .refl n w
  · next reply transactions orphan _ =>
      refine (beside_setNode w n { w.node n with transactions }).before ?_
      exact .after (sameNodes_wakeQuery? _ _ _) ⟨rfl, rfl, rfl, rfl⟩

theorem beside_beginQuery (w : World) (n : ℕ) (waker : Waker) (address : Address)
    (query : Krpc.Query) : Beside n w (w.beginQuery n waker address query).1 := by
  rw [beginQuery]
  -- How many draws are made does not matter, and the number is too large to compute with.
  generalize w.entropy.transactions.span = draws
  rcases (w.node n).transactions.begin w.now address query.method draws w.entropy.transactions with
    ⟨_ | e | ⟨number, transaction⟩, transactions, stream⟩
  · exact .of_eq rfl rfl rfl rfl
  · exact .of_eq rfl rfl rfl rfl
  · let w₁ : World := { w with
      entropy := { w.entropy with transactions := stream }
      awaited := w.awaited ++ [⟨n, number, waker⟩] }
    let w₂ := w₁.setNode n { w.node n with transactions }
    let w₃ := w₂.send ((w.node n).queryDatagram address transaction query)
    have noted : Beside n w w₁ := .of_eq rfl rfl rfl rfl
    have entered : Beside n w w₃ :=
      noted.trans ((beside_setNode w₁ n _).before (sameNodes_send w₂ _))
    have turned := entered.trans (beside_turnQuery w₃ n number)
    dsimp only
    rcases hturned : w₃.turnQuery n number with ⟨w₄, _ | reply⟩
    all_goals rw [hturned] at turned
    · exact turned.before ⟨rfl, rfl, rfl, rfl⟩
    · exact turned

theorem beside_beginQueries (w : World) (n : ℕ) (waker : Waker)
    (queries : List (Address × Krpc.Query)) : Beside n w (w.beginQueries n waker queries).1 := by
  induction queries generalizing w with
  | nil => exact .refl n w
  | cons p queries ih =>
      rw [beginQueries]
      exact (beside_beginQuery w n waker p.1 p.2).trans (ih _)

theorem beside_abandonQuery (w : World) (n number : ℕ) : Beside n w (w.abandonQuery n number) := by
  rw [abandonQuery]
  let transactions := ((w.node n).transactions.abandon number).1
  refine (beside_setNode w n { w.node n with transactions }).before ?_
  exact .after (sameNodes_wakeQuery? _ _ _) ⟨rfl, rfl, rfl, rfl⟩

theorem beside_turnSlots (w : World) (n : ℕ) (slots : List Slot) :
    Beside n w (w.turnSlots n slots).1 := by
  induction slots generalizing w with
  | nil => exact .refl n w
  | cons slot slots ih =>
      cases slot with
      | drawing | filled => exact ih w
      | waiting number =>
          have turned := (beside_turnQuery w n number).trans (ih _)
          rw [turnSlots]
          rcases hturn : w.turnQuery n number with ⟨w', _ | reply⟩
          all_goals
            rw [hturn] at turned
            exact turned

/-! ### Jobs and crews -/

section Jobs

variable {α : Type}

theorem beside_advance (w : World) (n : ℕ) (waker : Waker) (x : Activity α) :
    Beside n w (w.advance n waker x).1 := by
  induction x generalizing w with
  | done a => exact .refl n w
  | look k ih => exact ih _ _ w
  | put node next ih => exact (beside_setNode w n node).trans (ih _)
  | sample region k ih =>
      have drawn := ih (region.sample w.entropy.keys).1
        { w with entropy := { w.entropy with keys := (region.sample w.entropy.keys).2 } }
      exact drawn.after (.of_eq rfl rfl rfl rfl)
  | report infoHash peers next ih =>
      rw [advance]
      split
      · next listener _ =>
          have told := ih { w with heard := w.heard ++ [⟨listener, w.now, infoHash, peers⟩] }
          exact told.after (.of_eq rfl rfl rfl rfl)
      · exact ih w
  | ask queries k ih =>
      have begun := beside_beginQueries w n waker queries
      rw [advance]
      dsimp only
      split
      · exact begun.trans (ih _ _)
      · exact begun

/-- **A job that has its turn** works beside the other nodes. -/
theorem beside_turnJob (w : World) (n : ℕ) (waker : Waker) (job : JobState α) :
    Beside n w (w.turnJob n waker job).1 := by
  cases job with
  | fresh x => exact beside_advance w n waker x
  | waiting job =>
      have turned := beside_turnSlots w n job.slots
      rw [turnJob]
      dsimp only
      split
      · exact turned.trans (beside_advance _ n waker _)
      · exact turned

end Jobs

theorem beside_turnCrewJob (w : World) (n : ℕ) (task : TaskId) (c : CrewState) (number : ℕ) :
    Beside n w (w.turnCrewJob n task c number).1 := by
  rw [turnCrewJob]
  split
  · exact .refl n w
  · next job _ =>
      have turned := beside_turnJob w n ⟨task, number⟩ job
      split
      · next heq => exact congrArg Prod.fst heq ▸ turned
      · next heq => exact congrArg Prod.fst heq ▸ turned

theorem beside_turnCrew (w : World) (n : ℕ) (task : TaskId) (c : CrewState) (due : List ℕ) :
    Beside n w (w.turnCrew n task c due).1 := by
  fun_induction turnCrew with
  | case1 w c due activity waiting hc hroom ih => exact ih
  | case2 => exact .refl n _
  | case3 w c number due hstops next ih => exact (beside_turnCrewJob w n task c number).trans ih

theorem beside_turnCrewOf (w : World) (n : ℕ) (task : TaskId) (c : CrewState)
    (finish : ℕ → Result) (woken : List ℕ) :
    Beside n w (w.turnCrewOf n task c finish woken).1 := by
  have turned := beside_turnCrew w n task c (dueJobs c woken)
  rw [turnCrewOf]
  dsimp only
  split <;> exact turned

theorem sameNodes_takeWoken (w : World) (task : TaskId) : SameNodes w (w.takeWoken task).2 :=
  ⟨rfl, rfl, rfl, rfl⟩

/-- **What is done for a request** is done beside the other nodes. -/
theorem beside_turnRunning (w : World) (n : ℕ) (task : TaskId) (running : Running) :
    Beside n w (w.turnRunning n task running).1 := by
  refine ((sameNodes_takeWoken w task).beside n).trans ?_
  cases running with
  | crew c finish => exact beside_turnCrewOf _ n task c finish _
  | single job =>
      have turned := beside_turnJob (w.takeWoken task).2 n ⟨task, 0⟩ job
      rw [turnRunning]
      dsimp only
      split
      · next heq => exact congrArg Prod.fst heq ▸ turned
      · next heq => exact congrArg Prod.fst heq ▸ turned
      · next heq =>
          have turned' := congrArg Prod.fst heq ▸ turned
          exact turned'.trans (beside_turnCrewOf _ n task _ _ _)

/-! ### The background of a node -/

theorem beside_close (w : World) (n : ℕ) : Beside n w (w.close n) := by
  rw [close]
  split
  · exact .refl n w
  · let transactions := (w.node n).transactions.close.1
    refine (beside_setNode w n { w.node n with transactions }).before ?_
    refine .after (sameNodes_foldl _ (fun w number => sameNodes_wakeQuery w n number) _ _) ?_
    exact sameNodes_enqueueAll _ _

theorem beside_takeDatagrams (w : World) (n : ℕ) (datagrams : List Datagram) :
    Beside n w (w.takeDatagrams n datagrams) := by
  induction datagrams generalizing w with
  | nil => exact .refl n w
  | cons d datagrams ih =>
      rw [takeDatagrams]
      refine (ih _).after ?_
      let node := ((w.node n).receive w.now d.source d.data).1
      refine (beside_setNode w n node).before ?_
      refine .after (sameNodes_wakeQuery? _ _ _) ?_
      split
      · exact sameNodes_send _ _
      · exact .refl _

theorem sameNodes_receive (w : World) (address : Address) : SameNodes w (w.receive address).2 :=
  ⟨rfl, rfl, rfl, rfl⟩

theorem beside_takeArrived (w : World) (n passes : ℕ) : Beside n w (w.takeArrived n passes) := by
  induction passes generalizing w with
  | zero => exact .refl n w
  | succ passes ih =>
      have read := (sameNodes_receive w (w.node n).address).beside n
      rw [takeArrived]
      rcases hread : w.receive (w.node n).address with ⟨_ | ⟨d, datagrams⟩, w'⟩
      all_goals rw [hread] at read
      · exact read
      · exact (read.trans (beside_takeDatagrams w' n _)).trans (ih _)

theorem beside_rotateSecret (w : World) (n : ℕ) : Beside n w (w.rotateSecret n) :=
  (beside_setNode { w with entropy := { w.entropy with
    secrets := ((w.node n).server.rotateSecret w.entropy.secrets).2 } } n _).after
      (.of_eq rfl rfl rfl rfl)

end Mainline.Simulation.World
