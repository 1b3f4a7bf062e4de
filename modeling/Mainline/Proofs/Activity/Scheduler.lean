import Mainline.Proofs.Activity.Provenance
import Mainline.Proofs.Activity.Running

/-!
# The scheduler and the nodes

A `World` decides itself which task has its turn next, what arrives when, and how much time passes.
A `Site` leaves all that open: anything may happen at a node at any moment. What is known of all
courses of happenings is therefore known of the nodes of every world, provided that whatever a world
does is a course of happenings at each of its nodes. This module proves that it is, from the turn of
a single task up to all that goes on by itself once errands have been given.

## Main results

* `World.Evolves.setTask`, `World.Evolves.endTask`: what a task does for its node.
* `World.Evolves.turn`: the turn of a task, whatever the task is.
* `World.Evolves.settle`, `World.Evolves.waitWithin`: what goes on by itself.
-/

namespace Mainline

/-- The work that a node gives **itself**: what it does from time to time, and when it is told of a
torrent. -/
inductive Work.Own : Work → Prop
  | refreshStale (threshold : Duration) : Own (.request (.refreshStale threshold))
  | getPeers (infoHash : Key) : Own (.request (.getPeers infoHash))
  | lookupRegistered : Own .lookupRegistered
  | ofCrew {work : Work} (ofCrew : work.OfCrew) : Own work

/-- What a node gives itself to do names nobody for it to store. -/
theorem Work.Own.named_eq {work : Work} (own : work.Own) : work.named = ∅ := by
  cases own with
  | refreshStale | getPeers | lookupRegistered => rfl
  | ofCrew ofCrew => cases ofCrew <;> rfl

/-- The work that a node can have **begun**: what it gives itself, and the requests that it has been
asked. -/
inductive Work.Begun (asked : ℕ → Request → Prop) (i : ℕ) : Work → Prop
  | own {work : Work} (own : work.Own) : Begun asked i work
  | request {request : Request} (hasked : asked i request) : Begun asked i (.request request)

namespace Simulation

/-! ### Tasks and their jobs -/

/-- The node that a task works for, and the work that it is at. -/
def Task.work? : Task → Option (ℕ × Option Running)
  | upkeep n _ body => some (n, body)
  | errand (.request n running) => some (n, some running)
  | _ => none

/-- The jobs that a task has under way at a node. -/
def Task.jobs (i : ℕ) (t : Task) : List (JobState Unit) :=
  match t.work? with
  | some (n, body) => if n = i then bodyJobs body else []
  | none => []

/-- A task is **orderly** among so many nodes: it works for one of them, and the work is orderly. -/
def Task.Orderly (nodes : ℕ) (t : Task) : Prop :=
  ∀ n body, t.work? = some (n, body) → n < nodes ∧ BodyOrderly body

namespace Task

variable {t : Task} {n : ℕ} {body : Option Running}

theorem orderly_of_none (h : t.work? = none) (nodes : ℕ) : t.Orderly nodes := by
  intro n body heq
  rw [h] at heq
  cases heq

theorem jobs_of_none (h : t.work? = none) (i : ℕ) : t.jobs i = [] := by
  rw [jobs, h]

theorem Orderly.mono {nodes nodes' : ℕ} (h : t.Orderly nodes) (hle : nodes ≤ nodes') :
    t.Orderly nodes' :=
  fun n body heq => ⟨(h n body heq).1.trans_le hle, (h n body heq).2⟩

theorem orderly_of_some (h : t.work? = some (n, body)) {nodes : ℕ} (hn : n < nodes)
    (orderly : BodyOrderly body) : t.Orderly nodes := by
  intro n' body' heq
  cases h.symm.trans heq
  exact ⟨hn, orderly⟩

theorem jobs_self (h : t.work? = some (n, body)) : t.jobs n = bodyJobs body := by
  rw [jobs, h]
  exact if_pos rfl

theorem jobs_of_no_body (h : t.work? = some (n, none)) (i : ℕ) : t.jobs i = [] := by
  rw [jobs, h]
  dsimp only
  split <;> rfl

theorem jobs_of_ne (h : t.work? = some (n, body)) {i : ℕ} (hi : i ≠ n) : t.jobs i = [] := by
  rw [jobs, h]
  exact if_neg hi.symm

end Task

namespace World

variable {w w' w'' w₁ : World} {i n : ℕ} {id : TaskId} {t t' : Task}

/-- The jobs that are under way at a node. -/
def jobs (w : World) (i : ℕ) : List (JobState Unit) :=
  w.tasks.flatMap fun p => p.2.jobs i

/-- The jobs of all tasks but one. -/
def jobsBeside (w : World) (id : TaskId) (i : ℕ) : List (JobState Unit) :=
  (w.tasks.filter (·.1 != id)).flatMap fun p => p.2.jobs i

/-- A world is **orderly**: each number stands for one task, and all tasks are orderly. -/
structure Orderly (w : World) : Prop where
  nodup : (w.tasks.map Prod.fst).Nodup
  lt_next : ∀ id ∈ w.tasks.map Prod.fst, id < w.nextTask
  tasks : ∀ p ∈ w.tasks, p.2.Orderly w.nodes.length

theorem SameNodes.jobs (same : SameNodes w w') (i : ℕ) : w'.jobs i = w.jobs i := by
  rw [World.jobs, World.jobs, same.tasks]

/-- A task and the others. -/
theorem jobs_perm (h : w.Orderly) (hid : (id, t) ∈ w.tasks) (i : ℕ) :
    (w.jobs i).Perm (t.jobs i ++ w.jobsBeside id i) :=
  flatMap_perm_of_mem h.nodup hid fun p => p.2.jobs i

theorem jobs_setTask (h : w.Orderly) (hid : (id, t) ∈ w.tasks) (t' : Task) (i : ℕ) :
    ((w.setTask id t').jobs i).Perm (t'.jobs i ++ w.jobsBeside id i) :=
  flatMap_map_ite_perm h.nodup (List.mem_map_of_mem hid) t' fun p => p.2.jobs i

/-! ### Worlds that evolve -/

/-- One world **evolves** into another: whatever is different at a node is so by a course of
happenings. Only what nodes give themselves and what they have been `asked` is begun. -/
structure Evolves (asked : ℕ → Request → Prop) (w w' : World) : Prop where
  orderly : w'.Orderly
  length_eq : w'.nodes.length = w.nodes.length
  happens : ∀ i, i < w.nodes.length → Happens (Work.Begun asked i) i w (w.jobs i) w' (w'.jobs i)

namespace Evolves

variable {asked : ℕ → Request → Prop}

theorem refl (h : w.Orderly) : Evolves asked w w :=
  ⟨h, rfl, fun i _ => .refl w (w.jobs i)⟩

theorem trans (h : Evolves asked w w') (h' : Evolves asked w' w'') : Evolves asked w w'' :=
  ⟨h'.orderly, h'.length_eq.trans h.length_eq, fun i hi =>
    (h.happens i hi).trans (h'.happens i (h.length_eq.symm ▸ hi))⟩

/-- What leaves the nodes and the tasks alone. -/
theorem of_sameNodes (h : w.Orderly) (same : SameNodes w w') : Evolves asked w w' := by
  refine ⟨⟨?_, ?_, ?_⟩, congrArg List.length same.nodes, fun i hi => ?_⟩
  · exact same.tasks ▸ h.nodup
  · rw [same.tasks, same.nextTask]
    exact h.lt_next
  · rw [same.tasks, same.nodes]
    exact h.tasks
  · rw [same.jobs]
    exact (Happens.of_sameNodes same hi).idle (w.jobs i)

theorem before (h : Evolves asked w w') (same : SameNodes w' w'') : Evolves asked w w'' :=
  h.trans (of_sameNodes h.orderly same)

/-- **A node does something** of its own, in no task in particular. -/
theorem of_beside (h : w.Orderly) (beside : Beside n w w')
    (happens : n < w.nodes.length → Happens (Work.Begun asked n) n w [] w' []) :
    Evolves asked w w' := by
  refine ⟨⟨?_, ?_, ?_⟩, beside.length_eq, fun i hi => ?_⟩
  · exact beside.tasks_eq ▸ h.nodup
  · rw [beside.tasks_eq, beside.nextTask_eq]
    exact h.lt_next
  · rw [beside.tasks_eq, beside.length_eq]
    exact h.tasks
  · have hjobs : w'.jobs i = w.jobs i := by
      rw [World.jobs, World.jobs, beside.tasks_eq]
    rw [hjobs]
    by_cases hin : i = n
    · subst hin
      exact (happens hi).idle (w.jobs i)
    · exact (Happens.of_beside beside hi hin).idle (w.jobs i)

/-- A node does something for a task, whose jobs change from `before` to `after`. -/
theorem of_work {before after rest : ℕ → List (JobState Unit)} (beside : Beside n w w₁)
    (orderly : w'.Orderly) (nodes_eq : w'.nodes = w₁.nodes) (now_eq : w'.now = w₁.now)
    (jobs : ∀ i, (w.jobs i).Perm (before i ++ rest i))
    (jobs' : ∀ i, (w'.jobs i).Perm (after i ++ rest i)) (others : ∀ i, i ≠ n → after i = before i)
    (happens : n < w.nodes.length → Happens (Work.Begun asked n) n w (before n) w₁ (after n)) :
    Evolves asked w w' := by
  have length_eq : w'.nodes.length = w.nodes.length := by rw [nodes_eq, beside.length_eq]
  refine ⟨orderly, length_eq, fun i hi => ?_⟩
  have noted : Happens (Work.Begun asked i) i w₁ [] w' [] := by
    refine .elsewhere (length_eq ▸ hi) ?_ now_eq
    rw [node, node, nodes_eq]
  have worked : Happens (Work.Begun asked i) i w (before i) w₁ (after i) := by
    by_cases hin : i = n
    · subst hin
      exact happens hi
    · rw [others i hin]
      exact (Happens.of_beside beside hi hin).idle (before i)
  exact ((worked.beside (rest i)).trans (noted.idle _)).perm (jobs i) (jobs' i)

/-- **A task goes on**, and its node does something. -/
theorem setTask (h : w.Orderly) (hid : (id, t) ∈ w.tasks) (beside : Beside n w w₁)
    (others : ∀ i, i ≠ n → t'.jobs i = t.jobs i) (orderly : t'.Orderly w.nodes.length)
    (happens : n < w.nodes.length → Happens (Work.Begun asked n) n w (t.jobs n) w₁ (t'.jobs n)) :
    Evolves asked w (w₁.setTask id t') := by
  have tasks_eq : (w₁.setTask id t').tasks = (w.setTask id t').tasks :=
    congrArg (List.map _) beside.tasks_eq
  have keys_eq : (w₁.setTask id t').tasks.map Prod.fst = w.tasks.map Prod.fst := by
    rw [tasks_eq]
    exact keys_map_ite w.tasks id t'
  refine of_work beside ⟨?_, ?_, ?_⟩ rfl rfl (jobs_perm h hid) (fun i => ?_) others happens
  · exact keys_eq ▸ h.nodup
  · rw [keys_eq]
    exact beside.nextTask_eq.symm ▸ h.lt_next
  · intro p hp
    have length_eq : (w₁.setTask id t').nodes.length = w.nodes.length := beside.length_eq
    rw [tasks_eq] at hp
    obtain ⟨q, hq, rfl⟩ := List.mem_map.mp hp
    rw [length_eq]
    dsimp only
    split
    · exact orderly
    · exact h.tasks q hq
  · rw [World.jobs, tasks_eq]
    exact jobs_setTask h hid t' i

/-- **A task ends**, and its node does something. -/
theorem endTask (h : w.Orderly) (hid : (id, t) ∈ w.tasks) (beside : Beside n w w₁)
    (others : ∀ i, i ≠ n → t.jobs i = [])
    (happens : n < w.nodes.length → Happens (Work.Begun asked n) n w (t.jobs n) w₁ []) :
    Evolves asked w (w₁.endTask id) := by
  have tasks_eq : (w₁.endTask id).tasks = (w.endTask id).tasks :=
    congrArg (List.filter _) beside.tasks_eq
  have sub : (w₁.endTask id).tasks.Sublist w.tasks := tasks_eq ▸ List.filter_sublist
  refine of_work beside ⟨?_, ?_, ?_⟩ rfl rfl (jobs_perm h hid) (fun i => ?_)
    (fun i hi => (others i hi).symm) happens
  · exact h.nodup.sublist (sub.map Prod.fst)
  · exact fun id' hid' => beside.nextTask_eq.symm ▸ h.lt_next id' ((sub.map Prod.fst).subset hid')
  · intro p hp
    exact beside.length_eq.symm ▸ h.tasks p (sub.subset hp)
  · exact .of_eq (congrArg (List.flatMap _) tasks_eq)

/-- **A task is begun**, and with it perhaps work at a node. -/
theorem spawn (h : w.Orderly) (orderly : t.Orderly w.nodes.length)
    (tasks_eq : w'.tasks = w.tasks ++ [(w.nextTask, t)]) (next_eq : w'.nextTask = w.nextTask + 1)
    (nodes_eq : w'.nodes = w.nodes) (now_eq : w'.now = w.now)
    (happens : ∀ i, i < w.nodes.length → Happens (Work.Begun asked i) i w [] w (t.jobs i)) :
    Evolves asked w w' := by
  refine ⟨⟨?_, ?_, ?_⟩, congrArg List.length nodes_eq, fun i hi => ?_⟩
  · rw [tasks_eq, List.map_append, List.map_singleton, ← List.concat_eq_append]
    exact h.nodup.concat fun hmem => Nat.lt_irrefl _ (h.lt_next _ hmem)
  · intro id hid
    rw [tasks_eq, List.map_append, List.mem_append] at hid
    rw [next_eq]
    obtain hold | hnew := hid
    · exact Nat.lt_succ_of_lt (h.lt_next id hold)
    · rw [List.mem_singleton.mp hnew]
      exact Nat.lt_succ_self _
  · rw [tasks_eq, nodes_eq]
    exact List.forall_mem_append.mpr ⟨h.tasks, List.forall_mem_singleton.mpr orderly⟩
  · have hjobs : w'.jobs i = w.jobs i ++ t.jobs i := by
      rw [World.jobs, tasks_eq, List.flatMap_append, List.flatMap_singleton, World.jobs]
    have noted : Happens (Work.Begun asked i) i w [] w' [] := by
      refine .elsewhere (nodes_eq.symm ▸ hi) ?_ now_eq
      rw [node, node, nodes_eq]
    rw [hjobs]
    refine (((happens i hi).beside (w.jobs i)).perm (.refl _) List.perm_append_comm).trans ?_
    exact noted.idle _

end Evolves

/-! ### The turns of tasks -/

section Turns

variable {asked : ℕ → Request → Prop}

theorem happens_takeDatagrams (datagrams : List Datagram) :
    Happens (Work.Begun asked i) i w [] (w.takeDatagrams i datagrams) [] := by
  induction datagrams generalizing w with
  | nil => exact .refl w []
  | cons d datagrams ih => exact (Happens.receive d).trans ih

theorem happens_takeArrived (hi : i < w.nodes.length) (passes : ℕ) :
    Happens (Work.Begun asked i) i w [] (w.takeArrived i passes) [] := by
  induction passes generalizing w with
  | zero => exact .refl w []
  | succ passes ih =>
      have same := sameNodes_receive w (w.node i).address
      have read : Happens (Work.Begun asked i) i w [] (w.receive (w.node i).address).2 [] :=
        .of_sameNodes same hi
      rw [takeArrived]
      rcases hread : w.receive (w.node i).address with ⟨_ | ⟨d, datagrams⟩, w'⟩
      all_goals rw [hread] at same read
      · exact read
      · have taken := beside_takeDatagrams w' i
          ((d :: datagrams).map fun d => { d with data := d.data.take maxDatagram })
        have hi' : i < (w'.takeDatagrams i _).nodes.length :=
          taken.length_eq.symm ▸ same.nodes.symm ▸ hi
        exact (read.trans (happens_takeDatagrams _)).trans (ih hi')

theorem sameNodes_endNodeTask (w : World) (id : TaskId) (n : ℕ) :
    SameNodes (w.endTask id) (w.endNodeTask id n) :=
  sameNodes_enqueueAll _ _

theorem sameNodes_endErrand (w : World) (id : TaskId) (result : Result) :
    SameNodes (w.endTask id) (w.endErrand id result) := by
  rw [endErrand]
  split
  · exact ⟨rfl, rfl, rfl, rfl⟩
  · split
    · exact ⟨rfl, rfl, rfl, rfl⟩
    · exact .refl _

/-- A task without jobs ends. -/
theorem Evolves.endIdle (h : w.Orderly) (hid : (id, t) ∈ w.tasks) (idle : t.work? = none) :
    Evolves asked w (w.endTask id) := by
  refine .endTask (n := 0) h hid (.refl 0 w) (fun i _ => Task.jobs_of_none idle i) fun _ => ?_
  rw [Task.jobs_of_none idle]
  exact .refl w []

/-- A task without jobs goes on. -/
theorem Evolves.setIdle (h : w.Orderly) (hid : (id, t) ∈ w.tasks) (idle : t.work? = none)
    (idle' : t'.work? = none) : Evolves asked w (w.setTask id t') := by
  refine .setTask (n := 0) h hid (.refl 0 w) (fun i _ => ?_) (Task.orderly_of_none idle' _)
    fun _ => ?_
  · rw [Task.jobs_of_none idle, Task.jobs_of_none idle']
  · rw [Task.jobs_of_none idle, Task.jobs_of_none idle']
    exact .refl w []

/-- The turn of a **receiver**. -/
theorem Evolves.turnReceiver (h : w.Orderly) (hid : (id, .receiver n) ∈ w.tasks) :
    Evolves asked w (w.turnReceiver id n) := by
  have beside := beside_takeArrived w n 4
  have taken : Evolves asked w (w.takeArrived n 4) :=
    .of_beside h beside fun hn => happens_takeArrived hn 4
  rw [World.turnReceiver]
  split
  · have ended : Evolves asked (w.takeArrived n 4) _ :=
      .endIdle taken.orderly (beside.tasks_eq.symm ▸ hid) rfl
    exact (taken.trans ended).before (sameNodes_endNodeTask _ id n)
  · exact taken

/-! #### Upkeep -/

theorem sameNodes_armTicks (w : World) (id : TaskId) (ticks : Ticks) :
    SameNodes w (w.armTicks id ticks).1 := by
  have arm : ∀ (w : World) (tick : Tick),
      SameNodes w (if tick.armed then w else w.setTimer tick.due (.task id)) := by
    intro w tick
    split
    · exact .refl w
    · exact ⟨rfl, rfl, rfl, rfl⟩
  exact ((arm _ ticks.lookups).after (arm _ ticks.rotation)).after (arm w ticks.refresh)

theorem happens_rotateSecret (hi : i < w.nodes.length) :
    Happens (Work.Begun asked i) i w [] (w.rotateSecret i) [] := by
  let drawn : World := { w with entropy := { w.entropy with
    secrets := ((w.node i).server.rotateSecret w.entropy.secrets).2 } }
  have same : Happens (Work.Begun asked i) i w [] drawn [] := .elsewhere hi rfl rfl
  exact same.trans (Happens.aside rfl rfl)

/-- A task is **getting on** with the work for its node: since its turn began in the world `w₀`, the
node has done something, and `body` is what goes on. -/
structure GetsOn (asked : ℕ → Request → Prop) (n : ℕ) (t : Task) (w₀ w : World)
    (body : Option Running) : Prop where
  beside : Beside n w₀ w
  orderly : BodyOrderly body
  happens : Happens (Work.Begun asked n) n w₀ (t.jobs n) w (bodyJobs body)

namespace GetsOn

variable {w₀ : World} {body body' : Option Running}

/-- At the beginning of its turn. -/
theorem beginning (h : w.Orderly) (hid : (id, t) ∈ w.tasks) (ht : t.work? = some (n, body)) :
    GetsOn asked n t w w body :=
  ⟨.refl n w, (h.tasks _ hid n body ht).2, Task.jobs_self ht ▸ .refl w _⟩

theorem step (h : GetsOn asked n t w₀ w body) (beside : Beside n w w') (orderly : BodyOrderly body')
    (happens : Happens (Work.Begun asked n) n w (bodyJobs body) w' (bodyJobs body')) :
    GetsOn asked n t w₀ w' body' :=
  ⟨h.beside.trans beside, orderly, h.happens.trans happens⟩

/-- The task waits, and goes on with the work in its next turn. -/
theorem setTask (h : GetsOn asked n t w₀ w body) (h₀ : w₀.Orderly) (hid : (id, t) ∈ w₀.tasks)
    {body₀ : Option Running} (ht : t.work? = some (n, body₀)) (ht' : t'.work? = some (n, body)) :
    Evolves asked w₀ (w.setTask id t') := by
  have hn := (h₀.tasks _ hid n body₀ ht).1
  refine .setTask h₀ hid h.beside (fun i hi => ?_) (Task.orderly_of_some ht' hn h.orderly)
    fun _ => ?_
  · rw [Task.jobs_of_ne ht hi, Task.jobs_of_ne ht' hi]
  · rw [Task.jobs_self ht']
    exact h.happens

/-- The task ends. -/
theorem endTask (h : GetsOn asked n t w₀ w none) (h₀ : w₀.Orderly) (hid : (id, t) ∈ w₀.tasks)
    {body₀ : Option Running} (ht : t.work? = some (n, body₀)) : Evolves asked w₀ (w.endTask id) :=
  .endTask h₀ hid h.beside (fun _ hi => Task.jobs_of_ne ht hi) fun _ => h.happens

/-- Work is begun. -/
theorem begin (h : GetsOn asked n t w₀ w none) {x : Activity (Ending Result)} {work : Work}
    (hwork : Work.Begun asked n work) (heq : work.activity = x.discard)
    (known : x.EndsWith Ending.Known) :
    GetsOn asked n t w₀ w (some (.single (.fresh x))) := by
  have begun : Happens (Work.Begun asked n) n w [] w [.fresh x.discard] := heq ▸ .begin hwork
  exact h.step (.refl n w) (bodyOrderly_some known) begun

/-- The work has its turn. -/
theorem turnRunning {running : Running} {outcome : Outcome}
    (h : GetsOn asked n t w₀ w (some running)) (hn : n < w₀.nodes.length)
    (hturn : w.turnRunning n id running = (w', outcome)) : GetsOn asked n t w₀ w' outcome.rest := by
  have hn' : n < w.nodes.length := h.beside.length_eq.symm ▸ hn
  have known : ∀ work, Work.OfCrew work → Work.Begun asked n work :=
    fun work ofCrew => .own (.ofCrew ofCrew)
  have turned := happens_turnRunning id hn' known (h.orderly running rfl)
  have beside := beside_turnRunning w n id running
  rw [hturn] at turned beside
  exact h.step beside turned.2 turned.1

end GetsOn

/-- The turn of an **upkeep**. -/
theorem Evolves.turnUpkeep {w₀ : World} (h : w₀.Orderly) (hid : (id, t) ∈ w₀.tasks)
    {body₀ : Option Running} (ht : t.work? = some (n, body₀)) {ticks : Ticks}
    {body : Option Running} (rounds : ℕ) (getsOn : GetsOn asked n t w₀ w body) :
    Evolves asked w₀ (w.turnUpkeep id n ticks body rounds) := by
  have hn := (h.tasks _ hid n body₀ ht).1
  fun_induction World.turnUpkeep with
  | case1 w ticks body => exact (getsOn.setTask h hid ht rfl).before (sameNodes_enqueue _ _)
  | case2 w ticks rounds running w' running' hturn =>
      exact (getsOn.turnRunning hn hturn).setTask h hid ht rfl
  | case3 w ticks rounds running w' result hturn ih => exact ih (getsOn.turnRunning hn hturn)
  | case4 w ticks rounds closed =>
      exact (getsOn.endTask h hid ht).before (sameNodes_endNodeTask w id n)
  | case5 w ticks rounds settings _ _ work ih =>
      refine ih (getsOn.begin (.own (.refreshStale settings.staleAfter)) rfl ?_)
      exact Activity.endsWith_request _
  | case6 w ticks rounds _ _ _ ih =>
      have hn' : n < w.nodes.length := getsOn.beside.length_eq.symm ▸ hn
      exact ih (getsOn.step (beside_rotateSecret w n) bodyOrderly_none (happens_rotateSecret hn'))
  | case7 w ticks rounds _ _ _ _ work ih =>
      refine ih (getsOn.begin (.own .lookupRegistered) ?_ ?_)
      · exact (Activity.bind_assoc Upkeep.lookupRegistered
          (fun crew => .done (Ending.crew crew fun _ => Result.finished)) fun _ => .done ()).symm
      · exact Activity.endsWith_lookupRegistered.bind fun _ known => known
  | case8 w ticks rounds _ _ _ _ w' ticks' harm =>
      have hn' : n < w.nodes.length := getsOn.beside.length_eq.symm ▸ hn
      have same := sameNodes_armTicks w id ticks
      rw [harm] at same
      have armed := getsOn.step (same.beside n) bodyOrderly_none (.of_sameNodes same hn')
      exact armed.setTask h hid ht rfl

/-! #### Scripted nodes -/

/-- An answer is sent, at once or after a while. -/
theorem Evolves.sendAfter (h : w.Orderly) (r : Responder) (answer : Datagram) :
    Evolves asked w
      (if r.delay = 0 then w.send answer else (w.spawn (.delayed r.delay none answer)).2) := by
  split
  · exact .of_sameNodes h (sameNodes_send w answer)
  · refine .spawn h (Task.orderly_of_none rfl _) rfl rfl rfl rfl fun i _ => ?_
    rw [Task.jobs_of_none rfl]
    exact .refl w []

theorem Evolves.takeAtResponder (h : w.Orderly) (index : ℕ) (r : Responder) (d : Datagram) :
    Evolves asked w (w.takeAtResponder index r d) := by
  rw [World.takeAtResponder]
  split
  · next transaction _ query _ =>
      let noted : World := { w with
        log := w.log ++ [⟨w.now, (r.behave query).2.address, d.source, query⟩]
        responders := w.responders.set index (r.behave query).2 }
      have same : Evolves asked w noted := .of_sameNodes h ⟨rfl, rfl, rfl, rfl⟩
      dsimp only
      split
      · exact same
      · next data _ => exact same.trans (.sendAfter same.orderly _ _)
  · exact .refl h

theorem Evolves.takeAllAtResponder (h : w.Orderly) (index : ℕ) (datagrams : List Datagram) :
    Evolves asked w (w.takeAllAtResponder index datagrams) := by
  induction datagrams generalizing w with
  | nil => exact .refl h
  | cons d datagrams ih =>
      rw [World.takeAllAtResponder]
      split
      · next r _ =>
          have taken : Evolves asked w (w.takeAtResponder index r d) := .takeAtResponder h index r d
          exact taken.trans (ih taken.orderly)
      · exact ih h

/-- The turn of a **scripted node**. -/
theorem Evolves.turnResponder (h : w.Orderly) (index : ℕ) :
    Evolves asked w (w.turnResponder index) := by
  rw [World.turnResponder]
  split
  · exact .refl h
  · next r _ =>
      have read : Evolves asked w (w.receive r.address).2 :=
        .of_sameNodes h (sameNodes_receive w r.address)
      exact read.trans (.takeAllAtResponder read.orderly index _)

/-- The turn of a datagram that is to be sent **after a while**. -/
theorem Evolves.turnDelayed (h : w.Orderly) {delay : Duration} {due : Option Instant}
    {d : Datagram} (hid : (id, .delayed delay due d) ∈ w.tasks) :
    Evolves asked w (w.turnDelayed id delay due d) := by
  cases due with
  | none =>
      have set : Evolves asked w (w.setTask id (.delayed delay (some (w.now + delay)) d)) :=
        .setIdle h hid rfl rfl
      exact set.before ⟨rfl, rfl, rfl, rfl⟩
  | some due =>
      rw [World.turnDelayed]
      split
      · have ended : Evolves asked w (w.endTask id) := .endIdle h hid rfl
        exact ended.before (sameNodes_send _ d)
      · exact .refl h

/-! #### Errands -/

/-- A node is shut down. -/
theorem Evolves.close (h : w.Orderly) (n : ℕ) : Evolves asked w (w.close n) :=
  .of_beside h (beside_close w n) fun _ => .close

/-- A node changes, but neither its routing table nor its queries do. -/
theorem Evolves.aside (h : w.Orderly) {node : Node} (table_eq : node.table = (w.node n).table)
    (transactions_eq : node.transactions = (w.node n).transactions) :
    Evolves asked w (w.setNode n node) :=
  .of_beside h (beside_setNode w n node) fun _ => .aside table_eq transactions_eq

/-- An errand without jobs ends. -/
theorem Evolves.endErrand (h : w.Orderly) (hid : (id, t) ∈ w.tasks) (idle : t.work? = none)
    (result : Result) : Evolves asked w (w.endErrand id result) :=
  (endIdle h hid idle).before (sameNodes_endErrand w id result)

theorem mem_setTask (hid : (id, t) ∈ w.tasks) (t' : Task) : (id, t') ∈ (w.setTask id t').tasks :=
  List.mem_map.mpr ⟨(id, t), hid, if_pos rfl⟩

theorem close_tasks (w : World) (n : ℕ) : (w.close n).tasks = w.tasks :=
  (beside_close w n).tasks_eq

/-- The turn of a request that somebody **waits for**. -/
theorem Evolves.turnRequest (h : w.Orderly) {running : Running}
    (hid : (id, .errand (.request n running)) ∈ w.tasks) :
    Evolves asked w (w.turnErrand id (.request n running)) := by
  have hn := (h.tasks _ hid n _ rfl).1
  have beginning : GetsOn asked n _ w w (some running) := .beginning h hid rfl
  rw [World.turnErrand]
  split
  · next w' result hturn =>
      have ended := (beginning.turnRunning hn hturn).endTask h hid rfl
      exact ended.before (sameNodes_endErrand w' id result)
  · next w' running' hturn => exact (beginning.turnRunning hn hturn).setTask h hid rfl rfl

/-- The turn of a **pause**, behind which a node may be shut down. -/
theorem Evolves.turnSleep (h : w.Orderly) {duration : Duration} {due : Option Instant}
    {close : Option ℕ} (hid : (id, .errand (.sleep duration due close)) ∈ w.tasks) :
    Evolves asked w (w.turnErrand id (.sleep duration due close)) := by
  rw [World.turnErrand.eq_def]
  dsimp only
  split
  · split
    · next n =>
        have closed : Evolves asked w (w.close n) := .close h n
        exact closed.trans (.endErrand closed.orderly (close_tasks w n ▸ hid) rfl .finished)
    · exact .endErrand h hid rfl .finished
  · split
    · have set : Evolves asked w (w.setTask id
          (.errand (.sleep duration (some (due.getD (w.now + duration))) close))) :=
        .setIdle h hid rfl rfl
      exact set.before ⟨rfl, rfl, rfl, rfl⟩
    · exact .refl h

/-- The turn of the errand that **stops** a node. -/
theorem Evolves.turnStop (h : w.Orderly) {begun : Bool}
    (hid : (id, .errand (.stop n begun)) ∈ w.tasks) :
    Evolves asked w (w.turnErrand id (.stop n begun)) := by
  -- At first the node is shut down; in later turns this has been done.
  have stopped : ∃ v, Evolves asked w v ∧ (id, .errand (.stop n true)) ∈ v.tasks ∧
      v = if begun then w else (w.setTask id (.errand (.stop n true))).close n := by
    cases begun with
    | true => exact ⟨w, .refl h, hid, rfl⟩
    | false =>
        have set : Evolves asked w (w.setTask id (.errand (.stop n true))) :=
          .setIdle h hid rfl rfl
        refine ⟨_, set.trans (.close set.orderly n), ?_, rfl⟩
        rw [close_tasks]
        exact mem_setTask hid _
  obtain ⟨v, evolved, hid', hv⟩ := stopped
  rw [World.turnErrand]
  dsimp only
  rw [← hv]
  have noted : Evolves asked v (v.setNode n { v.node n with hasTasks := false }) :=
    .aside evolved.orderly rfl rfl
  split
  · exact evolved.trans noted
  · exact (evolved.trans noted).trans (.endErrand noted.orderly hid' rfl .finished)

/-- The turn of an **errand**. -/
theorem Evolves.turnErrand (h : w.Orderly) {errand : Errand}
    (hid : (id, .errand errand) ∈ w.tasks) : Evolves asked w (w.turnErrand id errand) := by
  cases errand with
  | request n running => exact .turnRequest h hid
  | sleep duration due close => exact .turnSleep h hid
  | untilClosed n =>
      rw [World.turnErrand]
      split
      · exact .endErrand h hid rfl .finished
      · exact .refl h
  | stop n begun => exact .turnStop h hid

/-- **The turn of a task**, whatever the task is. -/
theorem Evolves.turn (h : w.Orderly) (id : TaskId) : Evolves asked w (w.turn id) := by
  rw [World.turn]
  split
  · exact .refl h
  · next n ht => exact .turnReceiver h ((lookup_eq_some_iff_mem h.nodup).mp ht)
  · next n ticks body ht =>
      have hid := (lookup_eq_some_iff_mem h.nodup).mp ht
      exact .turnUpkeep h hid rfl 64 (.beginning h hid rfl)
  · next index _ => exact .turnResponder h index
  · next delay due d ht => exact .turnDelayed h ((lookup_eq_some_iff_mem h.nodup).mp ht)
  · next errand ht => exact .turnErrand h ((lookup_eq_some_iff_mem h.nodup).mp ht)

/-! ### What goes on by itself -/

theorem Evolves.next (h : w.Orderly) (hnext : w.next? = some w') : Evolves asked w w' := by
  have turned : ∀ (v : World) (id : TaskId), SameNodes w v → Evolves asked w (v.turn id) := by
    intro v id same
    have noted : Evolves asked w v := .of_sameNodes h same
    exact noted.trans (.turn noted.orderly id)
  rw [next?] at hnext
  split at hnext
  · cases hnext
    exact turned _ _ ⟨rfl, rfl, rfl, rfl⟩
  · split at hnext
    · cases hnext
      exact turned _ _ ⟨rfl, rfl, rfl, rfl⟩
    · cases hnext
      exact turned _ _ ⟨rfl, rfl, rfl, rfl⟩
    · cases hnext

theorem Evolves.settleWithin (h : w.Orderly) (turns : ℕ) :
    Evolves asked w (World.settleWithin turns w) := by
  induction turns generalizing w with
  | zero => exact .refl h
  | succ turns ih =>
      rw [World.settleWithin]
      split
      · next w' hnext =>
          have first : Evolves asked w w' := .next h hnext
          exact first.trans (ih first.orderly)
      · exact .refl h

/-- Turns are given **until nobody has anything to do**. -/
theorem Evolves.settle (h : w.Orderly) : Evolves asked w w.settle := by
  have noted : Evolves asked w { w with turnsLeft := 0 } :=
    .of_sameNodes h ⟨rfl, rfl, rfl, rfl⟩
  exact noted.trans (.settleWithin noted.orderly manyTurns)

/-- **Time passes.** -/
theorem Evolves.wait (h : w.Orderly) (duration : Duration) :
    Evolves asked w { w with now := w.now + duration } :=
  ⟨⟨h.nodup, h.lt_next, h.tasks⟩, rfl, fun i _ => (Happens.wait duration).idle (w.jobs i)⟩

theorem sameNodes_ring (w : World) (alarm : Alarm) : SameNodes w (w.ring alarm) := by
  cases alarm with
  | deadline node number => exact sameNodes_wakeQuery w node number
  | task task => exact sameNodes_enqueue w task

theorem Evolves.pass (h : w.Orderly) (hpass : w.pass? = some w') : Evolves asked w w' := by
  rw [pass?] at hpass
  split at hpass
  · cases hpass
  · next due _ =>
      cases hpass
      obtain ⟨duration, hduration⟩ := Int.le.dest (Int.le_max_left w.now due)
      have waited : Evolves asked w { w with now := max w.now due } :=
        hduration ▸ .wait h duration
      refine waited.before (.after (sameNodes_foldl _ (fun w timer => ?_) _ _) ?_)
      · exact sameNodes_ring w timer.alarm
      · exact ⟨rfl, rfl, rfl, rfl⟩

/-- **Things happen and time passes** until an errand has ended. -/
theorem Evolves.waitWithin (h : w.Orderly) (passes : ℕ) :
    Evolves asked w (World.waitWithin passes w) := by
  induction passes generalizing w with
  | zero => exact .refl h
  | succ passes ih =>
      have settled : Evolves asked w w.settle := .settle h
      rw [World.waitWithin]
      split
      · exact settled
      · split
        · next w' hpass =>
            have passed : Evolves asked w.settle w' := .pass settled.orderly hpass
            exact (settled.trans passed).trans (ih passed.orderly)
        · exact settled

end Turns

end World

end Simulation

end Mainline
