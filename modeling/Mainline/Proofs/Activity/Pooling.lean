import Mainline.Proofs.Activity.Reached

/-!
# Sites as pools

A `Pool` knows less of a node than a `Site` does: its tasks go on with any replies, no matter what
the queries of the node have come to. So everything that happens at a site can happen at a pool, and
what is known of all pools is known of all sites, and of the nodes of all worlds.

A job that waits at a site is a task that waits at the pool for as many replies. A job that has not
begun is none yet, since at a pool a task begins with its first turn; a job that is over is none any
more.

## Main results

* `pools_turnJob`: the turn of a job is a course of events at a pool.
* `Site.Pooled.run`: so is everything that happens at a site.
* `World.Reached.exists_events`: in every world that is reached, a course of events at a pool leads
  to what a node is like.
-/

namespace Mainline

/-! ### Courses between moments -/

/-- An event at a node with its tasks, seen as one that changes the moment and the list of tasks. -/
def poolRun (x : Moment × List (Activity Unit)) (e : Event) : Moment × List (Activity Unit) :=
  ((e.run ⟨x.1, x.2⟩).moment, (e.run ⟨x.1, x.2⟩).tasks)

theorem Event.runAll_eq_foldl (x : Moment × List (Activity Unit)) (events : List Event) :
    Event.runAll ⟨x.1, x.2⟩ events = ⟨(events.foldl poolRun x).1, (events.foldl poolRun x).2⟩ := by
  induction events generalizing x with
  | nil => rfl
  | cons e events ih => exact ih (poolRun x e)

/-- At a pool **nothing but events** lead from one moment with some tasks to another with others. -/
def Pools : Moment → List (Activity Unit) → Moment → List (Activity Unit) → Prop :=
  LeadsTo poolRun fun _ => True

namespace Pools

variable {m m' : Moment}

/-- What happens is a course of events at a pool. -/
theorem exists_events {tasks tasks' : List (Activity Unit)} (h : Pools m tasks m' tasks')
    {ts : List (Activity Unit)} (hts : ts.Perm tasks) :
    ∃ events ts', Event.runAll ⟨m, ts⟩ events = ⟨m', ts'⟩ ∧ ts'.Perm tasks' := by
  obtain ⟨events, ts', hts', -, hrun⟩ := h [] ts (hts.trans (.of_eq (List.append_nil _).symm))
  refine ⟨events, ts', ?_, hts'.trans (.of_eq (List.append_nil _))⟩
  rw [Event.runAll_eq_foldl (m, ts), hrun]

theorem begin (work : Work) :
    Pools m [] (work.activity.proceed m).1 [(work.activity.proceed m).2] :=
  LeadsTo.add (.begin work) trivial fun _ => rfl

theorem goOn {queries : List (Address × Krpc.Query)} (k : List Reply → Activity Unit)
    {replies : List Reply} (hlength : replies.length = queries.length) :
    Pools m [.ask queries k] ((k replies).proceed m).1 [((k replies).proceed m).2] := by
  refine LeadsTo.replace (.goOn · replies) (fun _ => trivial) fun all j hj => ?_
  simp only [poolRun, Event.run, hj, if_pos hlength, Pool.turn]

theorem abandon (task : Activity Unit) : Pools m [task] m [] :=
  LeadsTo.remove .abandon (fun _ => trivial) fun _ _ _ => rfl

theorem receive (source : Address) (data : Bytes) :
    Pools m [] { m with node := (m.node.receive m.now source data).1 } [] :=
  LeadsTo.of_state (.receive source data) trivial fun _ => rfl

theorem wait (duration : Duration) : Pools m [] { m with now := m.now + duration } [] :=
  LeadsTo.of_state (.wait duration) trivial fun _ => rfl

/-- The node changes, but its routing table does not, and keys are drawn elsewhere. -/
theorem of_table_eq (table_eq : m'.node.table = m.node.table) (now_eq : m'.now = m.now) :
    Pools m [] m' [] := by
  have changed : Pools m [] { m with node := m'.node } [] := by
    refine LeadsTo.of_state (.aside fun _ => m'.node) trivial fun all => ?_
    rw [poolRun, Event.run, ← table_eq]
  have drawn : Pools { m with node := m'.node } [] m' [] := by
    refine LeadsTo.of_state (.draw m'.keys) trivial fun all => ?_
    rw [poolRun, Event.run, ← now_eq]
  exact changed.trans drawn

end Pools

namespace Simulation

/-! ### Jobs and their tasks -/

/-- A job is at a pool no task, if it has not begun or is over, or a task that waits as it does. -/
inductive JobState.Stands : JobState Unit → List (Activity Unit) → Prop
  | fresh (work : Work) : Stands (.fresh work.activity) []
  | gone : Stands (.fresh (.done ())) []
  | waiting {queries : List (Address × Krpc.Query)} {slots : List Slot}
    {resume : List Reply → Activity Unit} (length_eq : slots.length = queries.length) :
    Stands (.waiting ⟨slots, resume⟩) [.ask queries resume]

namespace World

variable {w : World} {i : ℕ}

theorem length_of_replies {slots : List Slot} {replies : List Reply}
    (h : replies? slots = some replies) : replies.length = slots.length := by
  induction slots generalizing replies with
  | nil => cases h; rfl
  | cons slot slots ih =>
      cases slot with
      | drawing | waiting => cases h
      | filled reply =>
          obtain ⟨rest, hrest, rfl⟩ := Option.map_eq_some_iff.mp h
          rw [List.length_cons, List.length_cons, ih hrest]

theorem length_beginQueries (w : World) (i : ℕ) (waker : Waker)
    (queries : List (Address × Krpc.Query)) :
    (w.beginQueries i waker queries).2.length = queries.length := by
  induction queries generalizing w with
  | nil => rfl
  | cons p queries ih =>
      rw [beginQueries, List.length_cons, List.length_cons, ih]

theorem length_turnSlots (w : World) (i : ℕ) (slots : List Slot) :
    (w.turnSlots i slots).2.length = slots.length := by
  induction slots generalizing w with
  | nil => rfl
  | cons slot slots ih =>
      rw [turnSlots.eq_def]
      exact congrArg (· + 1) (ih _)

/-- What is about queries leaves the moment as it is for a pool. -/
theorem Proceeds.pools {w' : World} (h : Proceeds Traffic.Event.OnQueries i w w') :
    Pools (w.momentAt i) [] (w'.momentAt i) [] :=
  .of_table_eq h.table_eq h.own.now_eq

/-- **An activity gets as far** at a site as at a pool, where it goes on as often as it gets its
replies at once. -/
theorem pools_advance (hi : i < w.nodes.length) (waker : Waker) (x : Activity Unit) :
    ∃ tasks, (w.advance i waker x).2.rest.Stands tasks ∧
      Pools (x.proceed (w.momentAt i)).1 [(x.proceed (w.momentAt i)).2]
        ((w.advance i waker x).1.momentAt i) tasks := by
  induction x generalizing w with
  | done a => exact ⟨[], .gone, .abandon (.done a)⟩
  | look k ih => exact ih _ _ hi
  | put node next ih =>
      have hmoment : (w.setNode i node).momentAt i = { w.momentAt i with node } :=
        congrArg (Moment.mk · w.now w.entropy.keys) (node_setNode hi node)
      have put := ih (w := w.setNode i node) ((length_setNode w i node).symm ▸ hi)
      rw [hmoment] at put
      exact put
  | sample region k ih =>
      exact ih (region.sample w.entropy.keys).1
        (w := { w with entropy := { w.entropy with keys := (region.sample w.entropy.keys).2 } }) hi
  | report infoHash peers next ih =>
      rw [advance]
      cases (w.node i).listener with
      | none => exact ih hi
      | some listener =>
          exact ih (w := { w with heard := w.heard ++ [⟨listener, w.now, infoHash, peers⟩] }) hi
  | ask queries k ih =>
      have begun := proceeds_beginQueries hi waker queries
      have hlength := length_beginQueries w i waker queries
      have asked := begun.pools.idle [.ask queries k]
      rw [advance]
      dsimp only
      split
      · next replies hreplies =>
          obtain ⟨tasks, stands, goesOn⟩ := ih replies (begun.lt hi)
          refine ⟨tasks, stands, (asked.trans (Pools.goOn k ?_)).trans goesOn⟩
          rw [length_of_replies hreplies, hlength]
      · exact ⟨[.ask queries k], .waiting hlength, asked⟩

/-- **The turn of a job** is a course of events at a pool. -/
theorem pools_turnJob (hi : i < w.nodes.length) (waker : Waker) {job : JobState Unit}
    {tasks : List (Activity Unit)} (h : job.Stands tasks) :
    ∃ tasks', (w.turnJob i waker job).2.rest.Stands tasks' ∧
      Pools (w.momentAt i) tasks ((w.turnJob i waker job).1.momentAt i) tasks' := by
  cases h with
  | fresh work =>
      obtain ⟨tasks', stands, goesOn⟩ := pools_advance hi waker work.activity
      exact ⟨tasks', stands, (Pools.begin work).trans goesOn⟩
  | gone => exact ⟨[], .gone, .refl _ []⟩
  | @waiting queries slots resume hlength =>
      have turned := proceeds_turnSlots hi slots
      have hlength' := (length_turnSlots w i slots).trans hlength
      have waited := turned.pools.idle [.ask queries resume]
      rw [turnJob]
      dsimp only
      split
      · next replies hreplies =>
          obtain ⟨tasks', stands, goesOn⟩ := pools_advance (turned.lt hi) waker (resume replies)
          refine ⟨tasks', stands, (waited.trans (Pools.goOn resume ?_)).trans goesOn⟩
          rw [length_of_replies hreplies, hlength']
      · exact ⟨[.ask queries resume], .waiting hlength', waited⟩

end World

/-! ### Sites and pools -/

/-- A pool is **where a site is**: at the same moment, and the tasks of the pool stand for the jobs
of the site. -/
structure Site.Pooled (s : Site) (p : Pool) : Prop where
  moment_eq : p.moment = s.world.momentAt s.index
  tasks : ∃ tasks, List.Forall₂ JobState.Stands s.jobs tasks ∧ p.tasks.Perm tasks.flatten

/-- In two lists that correspond to each other, what stands at some place and what is around it. -/
theorem exists_forall₂_split {α β : Type} {R : α → β → Prop} {as : List α} {bs : List β}
    (h : List.Forall₂ R as bs) {k : ℕ} {a : α} (hk : as[k]? = some a) :
    ∃ b before after before' after', as = before ++ a :: after ∧ bs = before' ++ b :: after' ∧
      before.length = k ∧ R a b ∧ List.Forall₂ R before before' ∧ List.Forall₂ R after after' := by
  induction h generalizing k with
  | nil => cases hk
  | @cons a₀ b₀ as bs hab hrest ih =>
      cases k with
      | zero =>
          obtain rfl := Option.some.inj hk
          exact ⟨b₀, [], as, [], bs, rfl, rfl, rfl, hab, .nil, hrest⟩
      | succ k =>
          obtain ⟨b, before, after, before', after', rfl, rfl, rfl, hR, hbefore, hafter⟩ := ih hk
          exact ⟨b, a₀ :: before, after, b₀ :: before', after', rfl, rfl, rfl, hR,
            .cons hab hbefore, hafter⟩

namespace Site.Pooled

variable {s : Site} {p : Pool}

/-- What happens at the site without any of its jobs happens at the pool. -/
theorem of_pools (h : s.Pooled p) {w : World}
    (pools : Pools (s.world.momentAt s.index) [] (w.momentAt s.index) []) :
    ∃ events, Site.Pooled { s with world := w } (Event.runAll p events) := by
  obtain ⟨m, ts⟩ := p
  obtain ⟨rfl, tasks, stands, htasks⟩ := h
  obtain ⟨events, ts', hrun, hts'⟩ := Pools.exists_events (pools.idle tasks.flatten) htasks
  exact ⟨events, hrun ▸ ⟨rfl, tasks, stands, hts'⟩⟩

/-- What happens at the site to one of its jobs happens at the pool to what stands for it. -/
theorem of_job (h : s.Pooled p) {k : ℕ} {job : JobState Unit} (hk : s.jobs[k]? = some job)
    (w : World) (jobs' : List (JobState Unit))
    (pools : ∀ tasks, job.Stands tasks → ∃ tasks',
      List.Forall₂ JobState.Stands jobs' tasks' ∧
        Pools (s.world.momentAt s.index) tasks (w.momentAt s.index) tasks'.flatten) :
    ∃ before after, s.jobs = before ++ job :: after ∧ before.length = k ∧
      ∃ events, Site.Pooled { s with world := w, jobs := before ++ (jobs' ++ after) }
        (Event.runAll p events) := by
  obtain ⟨m, ts⟩ := p
  obtain ⟨rfl, tasks, stands, htasks⟩ := h
  obtain ⟨mine, before, after, before', after', hjobs, rfl, hlength, hmine, hbefore, hafter⟩ :=
    exists_forall₂_split stands hk
  obtain ⟨tasks', stands', pools⟩ := pools mine hmine
  refine ⟨before, after, hjobs, hlength, ?_⟩
  have hall : ts.Perm (mine ++ (before'.flatten ++ after'.flatten)) := by
    refine htasks.trans ?_
    rw [List.flatten_append, List.flatten_cons]
    exact List.perm_append_comm_assoc _ _ _
  obtain ⟨events, ts', hrun, hts'⟩ :=
    Pools.exists_events (pools.beside (before'.flatten ++ after'.flatten)) hall
  refine ⟨events, hrun ▸ ⟨rfl, before' ++ (tasks' ++ after'), ?_, hts'.trans ?_⟩⟩
  · exact List.rel_append hbefore (List.rel_append stands' hafter)
  · rw [List.flatten_append, List.flatten_append]
    exact List.perm_append_comm_assoc _ _ _

/-- **A job has its turn.** -/
theorem run_turn (h : s.Pooled p) (hi : s.index < s.world.nodes.length) (task : ℕ) (waker : Waker) :
    ∃ events, ((Happening.turn task waker).run s).Pooled (Event.runAll p events) := by
  rw [Happening.run]
  split
  · exact ⟨[], h⟩
  · next job hjob =>
      rcases hturn : s.world.turnJob s.index waker job with ⟨w, progress⟩
      obtain ⟨before, after, hjobs, rfl, pooled⟩ := h.of_job hjob w [progress.rest] (by
        intro tasks stands
        obtain ⟨tasks', stands', pools⟩ := World.pools_turnJob hi waker stands
        rw [hturn] at stands' pools
        refine ⟨[tasks'], .cons stands' .nil, ?_⟩
        rw [List.flatten_singleton]
        exact pools)
      dsimp only
      rw [hjobs, List.set_append_right _ _ (Nat.le_refl _), Nat.sub_self, List.set_cons_zero]
      exact pooled

/-- **A job is dropped.** -/
theorem run_abandon (h : s.Pooled p) (hi : s.index < s.world.nodes.length) (task : ℕ) :
    ∃ events, ((Happening.abandon task).run s).Pooled (Event.runAll p events) := by
  rw [Happening.run]
  split
  · exact ⟨[], h⟩
  · next job hjob =>
      let w := (World.openSlots job).foldl (fun w number => w.abandonQuery s.index number) s.world
      have dropped : Pools _ [] (w.momentAt s.index) [] :=
        (World.proceeds_abandonAll hi (World.openSlots job)).pools
      obtain ⟨before, after, hjobs, rfl, pooled⟩ := h.of_job hjob w [] (by
        intro tasks stands
        refine ⟨[], .nil, ?_⟩
        cases stands with
        | fresh | gone => exact dropped
        | waiting => exact (Pools.abandon _).trans dropped)
      dsimp only
      rw [hjobs, List.eraseIdx_append_of_length_le (Nat.le_refl _), Nat.sub_self,
        List.eraseIdx_cons_zero]
      exact pooled

/-- **Whatever happens at a site can happen at a pool.** -/
theorem run (h : s.Pooled p) (hi : s.index < s.world.nodes.length) (e : Happening) :
    ∃ events, (e.run s).Pooled (Event.runAll p events) := by
  cases e with
  | begin work =>
      obtain ⟨moment_eq, tasks, stands, htasks⟩ := h
      refine ⟨[], moment_eq, tasks ++ [[]], ?_, ?_⟩
      · exact List.rel_append stands (.cons (.fresh work) .nil)
      · rw [List.flatten_append, List.flatten_singleton, List.append_nil]
        exact htasks
  | turn task waker => exact h.run_turn hi task waker
  | abandon task => exact h.run_abandon hi task
  | receive source data =>
      have follows := World.traffic_takeDatagram hi ⟨source, s.node.address, data⟩
      have happens := follows.traffic_eq.trans (Traffic.runAll_receive ..)
      refine h.of_pools ((Pools.receive source data).trans (Pools.of_table_eq ?_ ?_))
      · exact congrArg (·.node.table) happens
      · exact congrArg (·.now) happens
  | close => exact h.of_pools (World.proceeds_close hi).pools
  | aside change =>
      refine h.of_pools (.of_table_eq ?_ rfl)
      rw [World.momentAt, World.node_setNode hi]
      rfl
  | elsewhere change =>
      rw [Happening.run]
      split
      · next hi' =>
          let w : World := { change s.world with now := s.world.now }
          have htraffic := World.traffic_setNode (w := w) hi' s.node
          exact h.of_pools (.of_table_eq (congrArg (·.node.table) htraffic) rfl)
      · exact ⟨[], h⟩
  | wait duration => exact h.of_pools (.wait duration)

end Site.Pooled

/-- The node of a site does not go away. -/
theorem Happening.index_lt_run {s : Site} (hi : s.index < s.world.nodes.length) (e : Happening) :
    (e.run s).index < (e.run s).world.nodes.length := by
  cases e with
  | begin | wait => exact hi
  | turn task waker =>
      rw [run]
      split
      · exact hi
      · exact (World.beside_turnJob s.world s.index waker _).length_eq.symm ▸ hi
  | abandon task =>
      rw [run]
      split
      · exact hi
      · exact (World.proceeds_abandonAll hi _).lt hi
  | receive source data => exact (World.beside_takeDatagrams s.world s.index _).length_eq.symm ▸ hi
  | close => exact (World.beside_close s.world s.index).length_eq.symm ▸ hi
  | aside change => exact (World.length_setNode s.world s.index _).symm ▸ hi
  | elsewhere change => exact (run_elsewhere hi change).1

/-- **Every course of happenings is one of events at a pool.** -/
theorem Site.Pooled.runAll {s : Site} {p : Pool} (h : s.Pooled p)
    (hi : s.index < s.world.nodes.length) (course : List Happening) :
    ∃ events, (Happening.runAll s course).Pooled (Event.runAll p events) := by
  induction course generalizing s p with
  | nil => exact ⟨[], h⟩
  | cons e course ih =>
      obtain ⟨events, pooled⟩ := h.run hi e
      obtain ⟨events', pooled'⟩ := ih pooled (Happening.index_lt_run hi e)
      refine ⟨events ++ events', ?_⟩
      rw [Event.runAll, List.foldl_append]
      exact pooled'

/-- **In every world that is reached**, a course of events at a pool leads from what a node was like
when it was added, with nothing to do, to what it is like, with tasks that stand for all that is
under way at it. -/
theorem World.Reached.exists_events {asked : ℕ → Request → Prop} {w : World} (h : Reached asked w)
    {i : ℕ} (hi : i < w.nodes.length) :
    ∃ w₀ localId address settings events,
      let start := Site.start w₀ localId address settings
      ∃ tasks, (Event.runAll ⟨start.world.momentAt start.index, []⟩ events).moment = w.momentAt i ∧
        (Event.runAll ⟨start.world.momentAt start.index, []⟩ events).tasks.Perm tasks.flatten ∧
          ∃ js, js.Perm (w.jobs i) ∧ List.Forall₂ JobState.Stands js tasks := by
  obtain ⟨w₀, localId, address, settings, course, js, hrun, hjs, -⟩ := h.atSite hi
  let start := Site.start w₀ localId address settings
  have idle : start.Pooled ⟨start.world.momentAt start.index, []⟩ := ⟨rfl, [], .nil, .nil⟩
  have hi₀ := (Site.faithful_start w₀ localId address settings ∅).index_lt
  obtain ⟨events, pooled⟩ := idle.runAll hi₀ course
  rw [hrun] at pooled
  obtain ⟨tasks, stands, htasks⟩ := pooled.tasks
  exact ⟨w₀, localId, address, settings, events, tasks, pooled.moment_eq, htasks, js, hjs, stands⟩

end Simulation

end Mainline
