import Mainline.Proofs.Activity.Scheduler

/-!
# Worlds that are reached

A simulation sets up nodes, has errands run and lets time pass. Whatever it does in this way, every
node of its world is at a site: a course of happenings leads to it from when the node was added. So
the theorems about courses of happenings and of traffic are theorems about simulations, and no order
of turns that the scheduler may choose needs to be looked at again.

## Main results

* `World.Evolves.perform`, `World.Evolves.begin`, `World.Evolves.drop`: what can be done with a world.
* `World.Reached.atSite`: every node of every world that is reached is at a site.
* `World.Reached.exists_traffic`: so its traffic has taken a course.
* `World.Reached.vouched_or_asked`: so the contacts in its routing table have been heard from.
-/

namespace Mainline.Simulation

namespace World

variable {asked : ℕ → Request → Prop} {w w' : World} {i n : ℕ} {id : TaskId} {t : Task}

/-! ### What can be done with a world -/

/-- An errand that has not begun. -/
inductive Commission where
  | request (node : ℕ) (request : Request)
  | sleep (duration : Duration) (close : Option ℕ)
  | untilClosed (node : ℕ)
  | stop (node : ℕ)

/-- The commission as an errand. -/
def Commission.errand : Commission → Errand
  | request n r => World.request n r
  | sleep duration close => .sleep duration none close
  | untilClosed n => .untilClosed n
  | stop n => .stop n false

/-- A commission may be given in a world: a request is made to one of its nodes, which may be asked
it. -/
inductive Commission.Fits (asked : ℕ → Request → Prop) (w : World) : Commission → Prop
  | request {n : ℕ} {request : Request} (hn : n < w.nodes.length) (hasked : asked n request) :
    Fits asked w (.request n request)
  | sleep (duration : Duration) (close : Option ℕ) : Fits asked w (.sleep duration close)
  | untilClosed (n : ℕ) : Fits asked w (.untilClosed n)
  | stop (n : ℕ) : Fits asked w (.stop n)

/-- A request is begun. -/
theorem Evolves.beginRequest (h : w.Orderly) (hn : n < w.nodes.length) {request : Request}
    (begun : Work.Begun asked n (.request request))
    (tasks_eq : w'.tasks = w.tasks ++ [(w.nextTask, .errand (World.request n request))])
    (next_eq : w'.nextTask = w.nextTask + 1) (nodes_eq : w'.nodes = w.nodes)
    (now_eq : w'.now = w.now) : Evolves asked w w' := by
  refine .spawn h (Task.orderly_of_some rfl hn (bodyOrderly_some ?_)) tasks_eq next_eq nodes_eq
    now_eq fun i _ => ?_
  · exact Activity.endsWith_request request
  · by_cases hin : i = n
    · subst hin
      rw [Task.jobs_self rfl]
      exact Happens.begin begun
    · rw [Task.jobs_of_ne rfl hin]
      exact .refl w []

theorem Evolves.commission (h : w.Orderly) {commission : Commission}
    (fits : commission.Fits asked w)
    (tasks_eq : w'.tasks = w.tasks ++ [(w.nextTask, .errand commission.errand)])
    (next_eq : w'.nextTask = w.nextTask + 1) (nodes_eq : w'.nodes = w.nodes)
    (now_eq : w'.now = w.now) : Evolves asked w w' := by
  cases fits with
  | request hn hasked => exact .beginRequest h hn (.request hasked) tasks_eq next_eq nodes_eq now_eq
  | sleep | untilClosed | stop =>
      refine .spawn h (Task.orderly_of_none rfl _) tasks_eq next_eq nodes_eq now_eq fun i _ => ?_
      rw [Task.jobs_of_none rfl]
      exact .refl w []

/-- An errand is run and **waited for**. -/
theorem Evolves.perform (h : w.Orderly) {commission : Commission}
    (fits : commission.Fits asked w) : Evolves asked w (w.perform commission.errand).1 := by
  let begun : World := { w with
    tasks := w.tasks ++ [(w.nextTask, .errand commission.errand)]
    nextTask := w.nextTask + 1
    foreground := some w.nextTask
    foregroundReady := true
    result := none }
  have started : Evolves asked w begun := .commission h fits rfl rfl rfl rfl
  have waited : Evolves asked begun _ := .waitWithin started.orderly manyTurns
  exact (started.trans waited).before ⟨rfl, rfl, rfl, rfl⟩

/-- An errand is begun **in the background**. -/
theorem Evolves.begin (h : w.Orderly) (name : String) {commission : Commission}
    (fits : commission.Fits asked w) : Evolves asked w (w.begin name commission.errand) := by
  let begun : World := { (w.spawn (.errand commission.errand)).2 with
    names := w.names ++ [(name, w.nextTask)] }
  have started : Evolves asked w begun := .commission h fits rfl rfl rfl rfl
  exact started.trans (.settle started.orderly)

/-- A background errand is **dropped**. -/
theorem Evolves.drop (h : w.Orderly) (name : String) : Evolves asked w (w.drop name) := by
  rw [World.drop]
  split
  · exact .refl h
  · next id _ =>
      have settled : ∀ v : World, Evolves asked w (v.endTask id) →
          Evolves asked w
            ({ v.endTask id with names := v.names.filter (·.2 != id) } : World).settle := by
        intro v ended
        have forgotten : Evolves asked w
            { v.endTask id with names := v.names.filter (·.2 != id) } :=
          ended.before ⟨rfl, rfl, rfl, rfl⟩
        exact forgotten.trans (.settle forgotten.orderly)
      split
      · next errand ht =>
          have hid := (lookup_eq_some_iff_mem h.nodup).mp ht
          cases errand with
          | request n running =>
              have beginning : GetsOn asked n _ w w (some running) := .beginning h hid rfl
              have dropped := beginning.step
                (.foldl (beside_abandonQuery · n) (openQueries running) w) bodyOrderly_none
                (happens_abandonAll running)
              exact settled _ (dropped.endTask h hid rfl)
          | sleep | untilClosed | stop => exact settled w (.endIdle h hid rfl)
      · exact .refl h

/-! ### Setting up -/

theorem Evolves.addResponder (h : w.Orderly) (r : Responder) :
    Evolves asked w (w.addResponder r) := by
  refine .spawn h (Task.orderly_of_none rfl _) rfl rfl rfl rfl fun i _ => ?_
  rw [Task.jobs_of_none rfl]
  exact .refl w []

/-- A node is set **to work**. -/
theorem Evolves.start (h : w.Orderly) (hn : n < w.nodes.length) (ok : w.start n = .ok w') :
    Evolves asked w w' := by
  rw [World.start] at ok
  split at ok
  · cases ok
  · split at ok
    · cases ok
      exact .refl h
    · cases ok
      let v := w.setNode n { w.node n with hasTasks := true }
      have noted : Evolves asked w v := .aside h rfl rfl
      have hn' : n < v.nodes.length := noted.length_eq.symm ▸ hn
      have received : Evolves asked v { (v.spawn (.receiver n)).2 with
          readers := v.readers ++ [((w.node n).address, v.nextTask)] } := by
        refine .spawn noted.orderly (Task.orderly_of_none rfl _) rfl rfl rfl rfl fun i _ => ?_
        rw [Task.jobs_of_none rfl]
        exact .refl v []
      refine (noted.trans received).trans ?_
      refine .spawn received.orderly (Task.orderly_of_some rfl hn' bodyOrderly_none) rfl rfl rfl rfl
        fun i _ => ?_
      rw [Task.jobs_of_no_body rfl]
      exact .refl _ []

/-- A torrent is **kept in mind**. -/
theorem Evolves.register (h : w.Orderly) (hn : n < w.nodes.length) (infoHash : Key) :
    Evolves asked w (w.register n infoHash) := by
  have noted : Evolves asked w (w.setNode n ((w.node n).register infoHash).1) := by
    refine .aside h ?_ ?_
    · rw [Node.register]
      split <;> rfl
    · rw [Node.register]
      split <;> rfl
  rw [World.register]
  dsimp only
  split
  · have hn' : n < (w.setNode n ((w.node n).register infoHash).1).nodes.length :=
      noted.length_eq.symm ▸ hn
    exact noted.trans (.beginRequest noted.orderly hn' (.own (.getPeers infoHash)) rfl rfl rfl rfl)
  · exact noted

/-! ### The nodes of a world -/

/-- A world is **reached**: nodes have been added to it and set to work, errands have been run, and
what is outside of the nodes has changed in any way. Of the nodes nothing has been requested but
what they may be `asked`. -/
inductive Reached (asked : ℕ → Request → Prop) : World → Prop
  | empty (entropy : Entropy) : Reached asked (.empty entropy)
  | addNode {w : World} (h : Reached asked w) (localId : Key) (address : Address)
    (settings : Settings) : Reached asked (w.addNode localId address settings)
  | addResponder {w : World} (h : Reached asked w) (r : Responder) :
    Reached asked (w.addResponder r)
  | start {w w' : World} (h : Reached asked w) {n : ℕ} (hn : n < w.nodes.length)
    (ok : w.start n = .ok w') : Reached asked w'
  | register {w : World} (h : Reached asked w) {n : ℕ} (hn : n < w.nodes.length) (infoHash : Key) :
    Reached asked (w.register n infoHash)
  /-- A node changes, but neither its routing table nor its queries do. -/
  | aside {w : World} (h : Reached asked w) {n : ℕ} {node : Node}
    (table_eq : node.table = (w.node n).table)
    (transactions_eq : node.transactions = (w.node n).transactions) :
    Reached asked (w.setNode n node)
  | perform {w : World} (h : Reached asked w) {commission : Commission}
    (fits : commission.Fits asked w) : Reached asked (w.perform commission.errand).1
  | begin {w : World} (h : Reached asked w) (name : String) {commission : Commission}
    (fits : commission.Fits asked w) : Reached asked (w.begin name commission.errand)
  | drop {w : World} (h : Reached asked w) (name : String) : Reached asked (w.drop name)
  | settle {w : World} (h : Reached asked w) : Reached asked w.settle
  /-- Datagrams are sent from outside or taken away, or what is to come of the world is another. -/
  | outside {w w' : World} (h : Reached asked w) (same : SameNodes w w') : Reached asked w'

theorem Orderly.empty (entropy : Entropy) : (World.empty entropy).Orderly :=
  ⟨.nil, List.forall_mem_nil _, List.forall_mem_nil _⟩

/-- Nothing is under way at nodes that there are not. -/
theorem Orderly.jobs_eq_nil (h : w.Orderly) (hi : w.nodes.length ≤ i) : w.jobs i = [] := by
  rw [jobs, List.flatMap_eq_nil_iff]
  intro p hp
  rcases hwork : p.2.work? with _ | ⟨n, body⟩
  · exact Task.jobs_of_none hwork i
  · have hn := (h.tasks p hp n body hwork).1
    exact Task.jobs_of_ne hwork (Nat.ne_of_gt (hn.trans_le hi))

/-- A node of a world is **at a site**: a course of happenings leads to it from when it was added to
a world, and what is under way at it is what the tasks of the world are at. -/
def AtSite (asked : ℕ → Request → Prop) (w : World) (i : ℕ) : Prop :=
  ∃ w₀ localId address settings course js,
    Happening.runAll (Site.start w₀ localId address settings) course = ⟨w, i, js⟩ ∧
      js.Perm (w.jobs i) ∧ ∀ work, .begin work ∈ course → Work.Begun asked i work

/-- What happens to a node at a site leads to a site. -/
theorem AtSite.happens (h : AtSite asked w i)
    (happens : Happens (Work.Begun asked i) i w (w.jobs i) w' (w'.jobs i)) : AtSite asked w' i := by
  obtain ⟨w₀, localId, address, settings, course, js, hrun, hjs, begun⟩ := h
  obtain ⟨course', js', hrun', hjs', begun'⟩ := happens.exists_course hjs
  refine ⟨w₀, localId, address, settings, course ++ course', js', ?_, hjs', fun work hwork => ?_⟩
  · rw [Happening.runAll_append, hrun, hrun']
  · exact (List.mem_append.mp hwork).elim (begun work) (begun' work)

/-- **A node is added**: it is at the site at which it starts, and the others stay where they
are. -/
theorem atSite_addNode (h : w.Orderly) (atSite : ∀ i, i < w.nodes.length → AtSite asked w i)
    (localId : Key) (address : Address) (settings : Settings) (hi : i < w.nodes.length + 1) :
    AtSite asked (w.addNode localId address settings) i := by
  have hnodes := nodes_addNode w localId address settings
  obtain hi | rfl := Nat.lt_succ_iff_lt_or_eq.mp hi
  · have hi' : i < (w.addNode localId address settings).nodes.length := by
      rw [hnodes, List.length_append]
      exact Nat.lt_add_right _ hi
    have node_eq : (w.addNode localId address settings).node i = w.node i := by
      rw [node, node, hnodes, List.getD_append _ _ _ _ hi]
    have stays : Happens (Work.Begun asked i) i w [] (w.addNode localId address settings) [] :=
      .elsewhere hi' node_eq rfl
    exact (atSite i hi).happens (stays.idle (w.jobs i))
  · refine ⟨w, localId, address, settings, [], [], rfl, ?_, fun _ hwork => ?_⟩
    · exact .of_eq (h.jobs_eq_nil (Nat.le_refl _)).symm
    · exact absurd hwork List.not_mem_nil

theorem Reached.orderly_atSite (h : Reached asked w) :
    w.Orderly ∧ ∀ i, i < w.nodes.length → AtSite asked w i := by
  -- Whatever a world does by evolving, leads from site to site.
  have step : ∀ {w w' : World}, (w.Orderly ∧ ∀ i, i < w.nodes.length → AtSite asked w i) →
      Evolves asked w w' → w'.Orderly ∧ ∀ i, i < w'.nodes.length → AtSite asked w' i := by
    intro w w' ih evolves
    refine ⟨evolves.orderly, fun i hi => ?_⟩
    rw [evolves.length_eq] at hi
    exact (ih.2 i hi).happens (evolves.happens i hi)
  induction h with
  | empty entropy => exact ⟨.empty entropy, fun i hi => absurd hi (Nat.not_lt_zero i)⟩
  | @addNode w h localId address settings ih =>
      have hlength : (w.addNode localId address settings).nodes.length = w.nodes.length + 1 := by
        rw [nodes_addNode, List.length_append, List.length_singleton]
      refine ⟨⟨ih.1.nodup, ih.1.lt_next, fun p hp => ?_⟩, fun i hi => ?_⟩
      · exact (ih.1.tasks p hp).mono (hlength ▸ Nat.le_succ _)
      · exact atSite_addNode ih.1 ih.2 localId address settings (hlength ▸ hi)
  | addResponder h r ih => exact step ih (.addResponder ih.1 r)
  | start h hn ok ih => exact step ih (.start ih.1 hn ok)
  | register h hn infoHash ih => exact step ih (.register ih.1 hn infoHash)
  | aside h table_eq transactions_eq ih => exact step ih (.aside ih.1 table_eq transactions_eq)
  | perform h fits ih => exact step ih (.perform ih.1 fits)
  | begin h name fits ih => exact step ih (.begin ih.1 name fits)
  | drop h name ih => exact step ih (.drop ih.1 name)
  | settle h ih => exact step ih (.settle ih.1)
  | outside h same ih => exact step ih (.of_sameNodes ih.1 same)

/-- **Every node of every world that is reached is at a site.** The scheduler, the network, the
timers and the errands that are run do nothing at a node but what is a course of happenings there. -/
theorem Reached.atSite (h : Reached asked w) (hi : i < w.nodes.length) : AtSite asked w i :=
  h.orderly_atSite.2 i hi

/-- In every world that is reached, the traffic at each node has taken a course from when the node
had not sent any query yet. -/
theorem Reached.exists_traffic (h : Reached asked w) (hi : i < w.nodes.length) :
    ∃ node now course, w.trafficAt i = Traffic.runAll (Traffic.start node now) course := by
  obtain ⟨w₀, localId, address, settings, course, js, hrun, -⟩ := h.atSite hi
  have faithful := Site.faithful_start w₀ localId address settings ∅
  obtain ⟨events, htraffic⟩ := faithful.exists_traffic course
  rw [hrun] at htraffic
  refine ⟨(Site.start w₀ localId address settings).node, w₀.now, events, htraffic.trans ?_⟩
  have hstart : (Site.start w₀ localId address settings).traffic =
      Traffic.start (Site.start w₀ localId address settings).node w₀.now := by
    rw [Site.node_start]
    exact congrArg (Traffic.State.mk · w₀.now none) (Site.node_start ..)
  rw [hstart]

/-- In every world that is reached the books of all nodes are sound, and their routing tables are
well formed. -/
theorem Reached.sound_and_wellFormed (h : Reached asked w) (hi : i < w.nodes.length) :
    (w.node i).transactions.Sound ∧ (w.node i).table.WellFormed := by
  obtain ⟨w₀, localId, address, settings, course, js, hrun, -⟩ := h.atSite hi
  have faithful := (Site.faithful_start w₀ localId address settings ∅).runAll course
  rw [hrun] at faithful
  exact ⟨faithful.sound, faithful.vouched.wellFormed⟩

end World

/-- **Whoever is in the routing table of a node has been heard from**, in every world that is
reached: a datagram vouches for the contact, which the node has received in a course of happenings
from when it was added up to now, or the node has been asked to store it. -/
theorem World.Reached.vouched_or_asked (h : Reached asked w) {i : ℕ} (hi : i < w.nodes.length) :
    ∃ start course js, Happening.runAll start course = ⟨w, i, js⟩ ∧
      ∀ m ∈ (w.node i).table.members,
        (∃ before data, before ++ [.receive m.contact.address data] <+: course ∧
          Traffic.Vouches (Happening.runAll start before).traffic m.contact.address data
            m.contact) ∨
        ∃ request, asked i request ∧ m.contact ∈ (Work.request request).named := by
  obtain ⟨w₀, localId, address, settings, course, js, hrun, -, begun⟩ := h.atSite hi
  refine ⟨_, course, js, hrun, fun m hm => ?_⟩
  let start := Site.start w₀ localId address settings
  have held : m ∈ (Happening.runAll start course).node.table.members := hrun ▸ hm
  obtain vouched | ⟨work, hwork, named⟩ := Site.vouched_or_named_of_start held
  · exact .inl vouched
  · cases begun work hwork with
    | own own =>
        rw [own.named_eq] at named
        exact named.elim
    | @request request hasked => exact .inr ⟨request, hasked, named⟩

end Mainline.Simulation
