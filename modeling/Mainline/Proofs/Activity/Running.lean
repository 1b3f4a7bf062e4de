import Mathlib.Data.List.GetD
import Mainline.Proofs.Activity.Beside
import Mainline.Proofs.Activity.Ending
import Mainline.Proofs.Activity.SideBySide

/-!
# Requests as happenings

A request keeps a task busy: first with a single job, and then perhaps with a crew, whose jobs are
begun one by one as there is room. A `Site` knows nothing of requests and crews. It has jobs, and
anything may happen to them in any order. This module shows that whatever the work on a request does
in its turn, is a course of such happenings, and that the jobs under way are the same in the end.

## Main results

* `Happens.turn`, `Happens.begin`, `Happens.elsewhere` and others: what a single happening leads to.
* `happens_turnCrew`: the turn of a crew is a course of happenings.
* `happens_turnRunning`: the turn of the work on a request is one.
-/

namespace Mainline.Simulation

/-! ### Courses between worlds -/

/-- A happening at a node, seen as an event that changes the world and the list of jobs. -/
def siteRun (i : ℕ) (x : World × List (JobState Unit)) (e : Happening) :
    World × List (JobState Unit) :=
  ((e.run ⟨x.1, i, x.2⟩).world, (e.run ⟨x.1, i, x.2⟩).jobs)

theorem siteRun_eq (i : ℕ) (x : World × List (JobState Unit)) (e : Happening) :
    e.run ⟨x.1, i, x.2⟩ = ⟨(siteRun i x e).1, i, (siteRun i x e).2⟩ :=
  congrArg (Site.mk (siteRun i x e).1 · (siteRun i x e).2)
    (Happening.index_run ⟨x.1, i, x.2⟩ e)

theorem runAll_eq_foldl (i : ℕ) (x : World × List (JobState Unit)) (course : List Happening) :
    Happening.runAll ⟨x.1, i, x.2⟩ course =
      ⟨(course.foldl (siteRun i) x).1, i, (course.foldl (siteRun i) x).2⟩ := by
  induction course generalizing x with
  | nil => rfl
  | cons e course ih =>
      rw [Happening.runAll, List.foldl_cons, siteRun_eq, List.foldl_cons]
      exact ih (siteRun i x e)

/-- At a node **nothing but happenings** lead from one world with some jobs under way to another
world with other jobs, whatever else is under way and in whatever order. Only work that has the
property `P` is begun. -/
def Happens (P : Work → Prop) (i : ℕ) : World → List (JobState Unit) → World →
    List (JobState Unit) → Prop :=
  LeadsTo (siteRun i) fun e => ∀ work, e = .begin work → P work

namespace Happens

variable {P : Work → Prop} {i : ℕ} {w w' : World}

/-- What happens is a course of happenings at a site. -/
theorem exists_course {jobs jobs' : List (JobState Unit)} (h : Happens P i w jobs w' jobs')
    {js : List (JobState Unit)} (hjs : js.Perm jobs) :
    ∃ course js', Happening.runAll ⟨w, i, js⟩ course = ⟨w', i, js'⟩ ∧ js'.Perm jobs' ∧
      ∀ work, .begin work ∈ course → P work := by
  obtain ⟨course, js', hjs', hP, hrun⟩ := h [] js (hjs.trans (.of_eq (List.append_nil _).symm))
  refine ⟨course, js', ?_, hjs'.trans (.of_eq (List.append_nil _)), fun work hwork => ?_⟩
  · rw [runAll_eq_foldl i (w, js), hrun]
  · exact hP _ hwork work rfl

/-- **Work is begun.** -/
theorem begin {work : Work} (hwork : P work) : Happens P i w [] w [.fresh work.activity] := by
  refine LeadsTo.add (.begin work) ?_ fun all => rfl
  rintro _ ⟨⟩
  exact hwork

/-- **A job has its turn.** -/
theorem turn (waker : Waker) (job : JobState Unit) :
    Happens P i w [job] (w.turnJob i waker job).1 [(w.turnJob i waker job).2.rest] := by
  refine LeadsTo.replace (.turn · waker) (fun _ _ => nofun) fun all k hk => ?_
  simp only [siteRun, Happening.run, hk]

/-- **A job is dropped.** -/
theorem abandon (job : JobState Unit) :
    Happens P i w [job]
      ((World.openSlots job).foldl (fun w number => w.abandonQuery i number) w) [] := by
  refine LeadsTo.remove .abandon (fun _ _ => nofun) fun all k hk => ?_
  simp only [siteRun, Happening.run, hk]

/-- **A datagram arrives.** -/
theorem receive (d : Datagram) : Happens P i w [] (w.takeDatagrams i [d]) [] :=
  LeadsTo.of_state (.receive d.source d.data) (fun _ => nofun) fun _ => rfl

/-- **The node is shut down.** -/
theorem close : Happens P i w [] (w.close i) [] :=
  LeadsTo.of_state (.close) (fun _ => nofun) fun _ => rfl

/-- **The node changes**, but neither its routing table nor its queries do. -/
theorem aside {node : Node} (table_eq : node.table = (w.node i).table)
    (transactions_eq : node.transactions = (w.node i).transactions) :
    Happens P i w [] (w.setNode i node) [] := by
  refine LeadsTo.of_state (.aside fun _ => node) (fun _ => nofun) fun all => ?_
  rw [siteRun, Happening.run, Site.node, ← table_eq, ← transactions_eq]

/-- **The world changes**, but the node and the clock do not. -/
theorem elsewhere (hi : i < w'.nodes.length) (node_eq : w'.node i = w.node i)
    (now_eq : w'.now = w.now) : Happens P i w [] w' [] := by
  refine LeadsTo.of_state (.elsewhere fun _ => w') (fun _ => nofun) fun all => ?_
  have hnode : w.node i = w'.nodes[i] := by
    rw [← node_eq, World.node, List.getD_eq_getElem _ _ hi]
  rw [siteRun, Happening.run, if_pos hi, Site.node, hnode, ← now_eq, World.setNode,
    List.set_getElem_self]

/-- **Time passes.** -/
theorem wait (duration : Duration) : Happens P i w [] { w with now := w.now + duration } [] :=
  LeadsTo.of_state (.wait duration) (fun _ => nofun) fun _ => rfl

/-- What leaves all nodes and the clock alone happens elsewhere. -/
theorem of_sameNodes (h : World.SameNodes w w') (hi : i < w.nodes.length) :
    Happens P i w [] w' [] := by
  refine elsewhere (h.nodes ▸ hi) ?_ h.now
  rw [World.node, World.node, h.nodes]

/-- The work of another node happens elsewhere. -/
theorem of_beside {n : ℕ} (h : World.Beside n w w') (hi : i < w.nodes.length) (hn : i ≠ n) :
    Happens P i w [] w' [] :=
  elsewhere (h.length_eq.symm ▸ hi) (h.node_eq i hn) h.now_eq

end Happens

/-! ### Jobs -/

variable {P : Work → Prop} {i : ℕ} {w : World} {α : Type}

/-- What is under way after the turn of a job. -/
def World.Progress.jobs : World.Progress α → List (JobState Unit)
  | .over _ => []
  | .waiting job => [(JobState.waiting job).discard]

/-- **The turn of a job** is a course of happenings: the job goes on, and is gone if it is over. -/
theorem happens_turnJob (waker : Waker) (job : JobState α) :
    Happens P i w [job.discard] (w.turnJob i waker job).1 (w.turnJob i waker job).2.jobs := by
  have turned : Happens P i w [job.discard] _ _ := .turn waker job.discard
  rw [World.turnJob_discard] at turned
  rcases hprogress : (w.turnJob i waker job).2 with a | job'
  all_goals rw [hprogress] at turned
  · exact turned.trans (Happens.abandon (.fresh (.done ())))
  · exact turned

theorem openSlots_discard (job : JobState α) :
    World.openSlots job.discard = World.openSlots job := by
  cases job <;> rfl

/-! ### Crews -/

namespace CrewState

/-- The jobs of a crew that are under way. -/
def jobs (c : CrewState) : List (JobState Unit) :=
  c.active.map fun p => p.2.discard

/-- A crew is **orderly**: what has not begun is work that is known, and each number stands for one
job. -/
structure Orderly (c : CrewState) : Prop where
  known : ∀ x ∈ c.waiting, ∃ work, Work.OfCrew work ∧ work.activity = x.discard
  nodup : (c.active.map Prod.fst).Nodup
  lt_next : ∀ number ∈ c.active.map Prod.fst, number < c.next

end CrewState

variable {c : CrewState} {task : TaskId}

namespace CrewState.Orderly

/-- A crew with one job more. -/
theorem begin (h : c.Orderly) {x : Activity ℕ} {waiting : List (Activity ℕ)}
    (hc : c.waiting = x :: waiting) :
    Orderly { c with waiting, active := c.active ++ [(c.next, .fresh x)], next := c.next + 1 } := by
  refine ⟨fun y hy => h.known y (hc ▸ List.mem_cons_of_mem x hy), ?_, fun number hnumber => ?_⟩
  · rw [List.map_append, List.map_singleton, ← List.concat_eq_append]
    exact h.nodup.concat fun hmem => Nat.lt_irrefl _ (h.lt_next _ hmem)
  · rw [List.map_append, List.mem_append] at hnumber
    obtain hold | hnew := hnumber
    · exact Nat.lt_succ_of_lt (h.lt_next number hold)
    · rw [List.mem_singleton.mp hnew]
      exact Nat.lt_succ_self _

/-- A crew with other jobs under the same numbers, or some of them. -/
theorem of_keys (h : c.Orderly) {c' : CrewState} (waiting : c'.waiting = c.waiting)
    (next : c'.next = c.next)
    (keys : (c'.active.map Prod.fst).Sublist (c.active.map Prod.fst)) : c'.Orderly :=
  ⟨waiting ▸ h.known, h.nodup.sublist keys, fun number hnumber =>
    next ▸ h.lt_next number (keys.subset hnumber)⟩

theorem turnCrewJob (h : c.Orderly) (number : ℕ) :
    (w.turnCrewJob i task c number).2.Orderly := by
  rw [World.turnCrewJob]
  split
  · exact h
  · split
    · exact h.of_keys rfl rfl (List.filter_sublist.map Prod.fst)
    · next job _ =>
        have keys := keys_map_ite c.active number (.waiting job)
        exact h.of_keys rfl rfl ((congrArg (List.Sublist · _) keys).mpr (.refl _))

end CrewState.Orderly

/-- A job of a crew and the others. -/
theorem CrewState.jobs_perm (h : c.Orderly) {number : ℕ} {job : JobState ℕ}
    (hmem : (number, job) ∈ c.active) :
    c.jobs.Perm ([job.discard] ++
      (c.active.filter (·.1 != number)).map fun p => p.2.discard) := by
  have out := flatMap_perm_of_mem h.nodup hmem fun p => [p.2.discard]
  rwa [← List.map_eq_flatMap, ← List.map_eq_flatMap] at out

/-- The turn of a job of a crew. -/
theorem happens_turnCrewJob (h : c.Orderly) (number : ℕ) :
    Happens P i w c.jobs (w.turnCrewJob i task c number).1
      (w.turnCrewJob i task c number).2.jobs := by
  rw [World.turnCrewJob]
  split
  · exact .refl w c.jobs
  · next job hjob =>
      have hmem := (lookup_eq_some_iff_mem h.nodup).mp hjob
      have turned := (happens_turnJob (P := P) (i := i) (w := w) ⟨task, number⟩ job).beside
        ((c.active.filter (·.1 != number)).map fun p => p.2.discard)
      rcases hturn : w.turnJob i ⟨task, number⟩ job with ⟨w', n | job'⟩
      all_goals rw [hturn] at turned
      · exact turned.perm (c.jobs_perm h hmem) (.refl _)
      · have changed := flatMap_map_ite_perm h.nodup (List.mem_map_of_mem hmem) (.waiting job')
          fun p => [p.2.discard]
        rw [← List.map_eq_flatMap, ← List.map_eq_flatMap] at changed
        exact turned.perm (c.jobs_perm h hmem) changed

/-- **The turn of a crew** is a course of happenings: jobs go on, and others are begun. -/
theorem happens_turnCrew (task : TaskId) (hP : ∀ work, Work.OfCrew work → P work) (h : c.Orderly)
    (due : List ℕ) :
    Happens P i w c.jobs (w.turnCrew i task c due).1 (w.turnCrew i task c due).2.jobs ∧
      (w.turnCrew i task c due).2.Orderly := by
  fun_induction World.turnCrew with
  | case1 w c due x waiting hc hroom ih =>
      obtain ⟨goesOn, orderly⟩ := ih (h.begin hc)
      refine ⟨?_, orderly⟩
      obtain ⟨work, ofCrew, hwork⟩ := h.known x (hc ▸ List.mem_cons_self)
      have begun : Happens P i w c.jobs w ([.fresh x.discard] ++ c.jobs) :=
        hwork ▸ (Happens.begin (hP work ofCrew)).beside c.jobs
      refine (begun.perm (.refl _) ?_).trans goesOn
      rw [CrewState.jobs, List.map_append]
      exact List.perm_append_comm
  | case2 w c hstops => exact ⟨.refl w c.jobs, h⟩
  | case3 w c number due hstops next ih =>
      obtain ⟨goesOn, orderly⟩ := ih (h.turnCrewJob number)
      exact ⟨(happens_turnCrewJob h number).trans goesOn, orderly⟩

/-! ### Requests -/

/-- The jobs that the work on a request has under way. -/
def Running.jobs : Running → List (JobState Unit)
  | single job => [job.discard]
  | crew c _ => c.jobs

/-- The work on a request is **orderly**: it ends with a crew that is known, or has got to it. -/
def Running.Orderly : Running → Prop
  | single job => job.EndsWith Ending.Known
  | crew c _ => c.Orderly

/-- What is left of a request after a turn. -/
def World.Outcome.rest : World.Outcome → Option Running
  | result _ => none
  | running r => some r

/-- The jobs of work that may be left. -/
def bodyJobs : Option Running → List (JobState Unit)
  | some running => running.jobs
  | none => []

/-- Work that may be left is orderly, if it is. -/
def BodyOrderly (body : Option Running) : Prop :=
  ∀ running, body = some running → running.Orderly

theorem bodyOrderly_none : BodyOrderly none := by
  rintro _ ⟨⟩

theorem bodyOrderly_some {running : Running} (h : running.Orderly) :
    BodyOrderly (some running) := by
  rintro _ ⟨⟩
  exact h

theorem happens_turnCrewOf (task : TaskId) (hP : ∀ work, Work.OfCrew work → P work)
    (h : c.Orderly) (finish : ℕ → Result) (woken : List ℕ) :
    Happens P i w c.jobs (w.turnCrewOf i task c finish woken).1
        (bodyJobs (w.turnCrewOf i task c finish woken).2.rest) ∧
      BodyOrderly (w.turnCrewOf i task c finish woken).2.rest := by
  obtain ⟨turned, orderly⟩ :=
    happens_turnCrew (i := i) (w := w) task hP h (World.dueJobs c woken)
  rw [World.turnCrewOf]
  dsimp only
  split
  · next hempty =>
      have hnone : (w.turnCrew i task c (World.dueJobs c woken)).2.jobs = [] :=
        congrArg (List.map _) (List.isEmpty_iff.mp hempty)
      rw [hnone] at turned
      exact ⟨turned, bodyOrderly_none⟩
  · exact ⟨turned, bodyOrderly_some orderly⟩

/-- **The turn of the work on a request** is a course of happenings. -/
theorem happens_turnRunning (task : TaskId) (hi : i < w.nodes.length)
    (hP : ∀ work, Work.OfCrew work → P work) {running : Running} (h : running.Orderly) :
    Happens P i w running.jobs (w.turnRunning i task running).1
        (bodyJobs (w.turnRunning i task running).2.rest) ∧
      BodyOrderly (w.turnRunning i task running).2.rest := by
  have woken : Happens P i w [] (w.takeWoken task).2 [] :=
    .of_sameNodes (World.sameNodes_takeWoken w task) hi
  cases running with
  | crew c finish =>
      obtain ⟨turned, orderly⟩ :=
        happens_turnCrewOf (i := i) (w := (w.takeWoken task).2) task hP h finish
          (w.takeWoken task).1
      exact ⟨(woken.idle c.jobs).trans turned, orderly⟩
  | single job =>
      have turned := (woken.idle [job.discard]).trans (happens_turnJob ⟨task, 0⟩ job)
      have ending := World.endsWith_turnJob (w.takeWoken task).2 i ⟨task, 0⟩ h
      rw [World.turnRunning]
      dsimp only
      rcases hturn : (w.takeWoken task).2.turnJob i ⟨task, 0⟩ job with
        ⟨w', (_ | ⟨crew, finish⟩) | job'⟩
      all_goals rw [hturn] at turned ending
      · exact ⟨turned, bodyOrderly_none⟩
      · have orderly : CrewState.Orderly ⟨crew.width, crew.jobs, [], 0, 0⟩ :=
          ⟨ending, .nil, List.forall_mem_nil _⟩
        obtain ⟨begun, orderly'⟩ :=
          happens_turnCrewOf (i := i) (w := w') task hP orderly finish []
        exact ⟨turned.trans begun, orderly'⟩
      · exact ⟨turned, bodyOrderly_some ending⟩

/-- **The work on a request is dropped.** -/
theorem happens_abandonAll (running : Running) :
    Happens P i w running.jobs
      ((World.openQueries running).foldl (fun w number => w.abandonQuery i number) w) [] := by
  cases running with
  | single job =>
      rw [World.openQueries, ← openSlots_discard]
      exact .abandon job.discard
  | crew c finish =>
      rw [World.openQueries, Running.jobs, CrewState.jobs]
      generalize c.active = active
      induction active generalizing w with
      | nil => exact .refl w []
      | cons p active ih =>
          obtain ⟨number, job⟩ := p
          have dropped : Happens P i w ([job.discard] ++ active.map fun p => p.2.discard) _ _ :=
            (Happens.abandon job.discard).beside _
          rw [openSlots_discard] at dropped
          rw [List.flatMap_cons, List.foldl_append]
          exact dropped.trans ih

end Mainline.Simulation
