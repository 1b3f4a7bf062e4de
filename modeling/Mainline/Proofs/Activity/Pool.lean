import Mainline.Proofs.Activity.Account

/-!
# A node at work

A node has any number of tasks under way. Each of them is an activity that waits for replies, and
when it has got them it goes on to its next wait without interruption. Which task goes on next, and
with which replies, depends on the network, on the books of the queries under way and on the
scheduler. Nothing is assumed of them here: a `Pool` makes progress by events in any order, and a
task may be given any replies at all. What holds for every list of events therefore holds for every
behaviour of the network and for every interleaving of the tasks, whether the node is shut down in
between or not.

## Main results

* `Pool.atRest_runAll`: whatever happens, all tasks keep account.
* `Event.turns_run`: what an event does to the routing table, it does in steps that are due.
-/

namespace Mainline

open Routing (Step)

/-- What a node can be given to do. -/
inductive Work : Type 1 where
  | request (request : Request)
  /-- A lookup for any purpose. -/
  | lookup {σ : Type} (target : Key) (purpose : Purpose σ) (nothing : σ) (seeds : Lookup.Seeds)
  /-- A job of a crew that refreshes buckets. -/
  | refreshBucket (bucket : Fin 160)
  /-- A job of a crew that looks up torrents. -/
  | lookupPeers (infoHash : Key)
  /-- Getting a crew together that looks up all torrents kept in mind. -/
  | lookupRegistered

/-- The work as an activity. -/
def Work.activity : Work → Activity Unit
  | .request r => do let _ ← r.activity
  | .lookup target purpose nothing seeds => do
    let _ ← Lookup.start target purpose nothing seeds
  | .refreshBucket bucket => do let _ ← Upkeep.refreshBucket bucket
  | .lookupPeers infoHash => do let _ ← Upkeep.lookupPeers infoHash
  | .lookupRegistered => do let _ ← Upkeep.lookupRegistered

/-- A node with its tasks. -/
structure Pool where
  /-- What a task finds when it has its turn. -/
  moment : Moment
  /-- What is left to do for each task. -/
  tasks : List (Activity Unit)

/-- Something that happens at a node. -/
inductive Event : Type 1 where
  /-- A task is begun. -/
  | begin (work : Work)
  /-- A task goes on with the replies that it has been waiting for. -/
  | goOn (task : ℕ) (replies : List Reply)
  /-- A task is dropped. -/
  | abandon (task : ℕ)
  /-- A datagram arrives. -/
  | receive (source : Address) (data : Bytes)
  /-- The node is shut down. -/
  | close
  /-- The node changes in any way that leaves its routing table alone. -/
  | aside (change : Node → Node)
  /-- Random keys are drawn elsewhere. -/
  | draw (keys : ByteStream)
  | wait (duration : Duration)

/-- A task takes its turn from a moment on. -/
def Pool.turn (p : Pool) (x : Activity Unit) (keep : Activity Unit → List (Activity Unit)) : Pool :=
  ⟨(x.proceed p.moment).1, keep (x.proceed p.moment).2⟩

/-- The node with its tasks after an event. -/
def Event.run (p : Pool) : Event → Pool
  | begin work => p.turn work.activity fun rest => p.tasks ++ [rest]
  | goOn i replies =>
    match p.tasks[i]? with
    | some (.ask queries k) =>
      if replies.length = queries.length then p.turn (k replies) (p.tasks.set i) else p
    | _ => p
  | abandon i => { p with tasks := p.tasks.eraseIdx i }
  | receive source data =>
    { p with moment.node := (p.moment.node.receive p.moment.now source data).1 }
  | close =>
    { p with moment.node.transactions := p.moment.node.transactions.close.1 }
  | aside change =>
    { p with moment.node := { change p.moment.node with table := p.moment.node.table } }
  | draw keys => { p with moment.keys := keys }
  | wait duration => { p with moment.now := p.moment.now + duration }

/-- The node with its tasks after several events. -/
def Event.runAll (p : Pool) (events : List Event) : Pool :=
  events.foldl Event.run p

/-- The event lets a task go on with replies. -/
inductive Event.GoesOn (p : Pool) (task : Activity Unit) (replies : List Reply) : Event → Prop
  | intro {i : ℕ} (waits : p.tasks[i]? = some task) : GoesOn p task replies (.goOn i replies)

/-- The steps that are **due** when an event happens. -/
inductive Event.Due (p : Pool) (event : Event) : Step → Prop
  | proposed {step : Step} (proposes : step.Proposes) : Due p event step
  | replied {task : Activity Unit} {replies : List Reply} {step : Step}
      (goesOn : event.GoesOn p task replies) (due : task.Due replies step) : Due p event step
  | waited (duration : Duration) : Due p event (.wait duration)

/-- What is due when an event happens removes no member on request. -/
theorem Event.Due.ne_remove {p : Pool} {event : Event} {step : Step} (due : event.Due p step)
    (id : Key) : step ≠ .remove id := by
  cases due with
  | proposed proposes => cases proposes <;> nofun
  | replied goesOn due =>
      cases due with
      | proposed proposes => cases proposes <;> nofun
      | failed | probed => nofun
  | waited => nofun

/-- All tasks **keep account**. -/
def Pool.AtRest (p : Pool) : Prop :=
  ∀ task ∈ p.tasks, task.AtRest

/-- Everything that a node can be given to do keeps account. -/
theorem Work.accounted (work : Work) : work.activity.Accounted := by
  cases work with
  | request request =>
      exact (Activity.accounted_request request).bind fun _ => Activity.accounted_done ()
  | lookup target purpose nothing seeds =>
      exact (Activity.accounted_start target purpose nothing seeds).bind fun _ =>
        Activity.accounted_done ()
  | refreshBucket bucket =>
      exact (Activity.accounted_refreshBucket bucket).bind fun _ => Activity.accounted_done ()
  | lookupPeers infoHash =>
      exact (Activity.accounted_lookupPeers infoHash).bind fun _ => Activity.accounted_done ()
  | lookupRegistered =>
      exact Activity.accounted_lookupRegistered.bind fun _ => Activity.accounted_done ()

/-- A datagram changes the routing table by an offer of its sender at most. -/
theorem Node.table_receive (node : Node) (now : Instant) (source : Address) (data : Bytes) :
    (node.receive now source data).1.table = node.table ∨
      ∃ sender, (node.receive now source data).1.table = (node.table.observe now sender).1 := by
  rw [receive]
  split
  · exact .inl rfl
  · next message _ =>
      obtain ⟨transaction, ⟨sender, query⟩ | response | error⟩ := message
      · exact .inr ⟨_, rfl⟩
      · exact .inl rfl
      · exact .inl rfl

namespace Event

variable {p : Pool}

/-- What happens when a task goes on: it takes its turn, or nothing happens. -/
theorem run_goOn (p : Pool) (i : ℕ) (replies : List Reply) :
    (∃ queries k, p.tasks[i]? = some (.ask queries k) ∧ replies.length = queries.length ∧
      (goOn i replies).run p = p.turn (k replies) (p.tasks.set i)) ∨
    (goOn i replies).run p = p := by
  rw [run]
  split
  · next queries k hwaits =>
      split
      · next hlength => exact .inl ⟨queries, k, hwaits, hlength, rfl⟩
      · exact .inr rfl
  · exact .inr rfl

/-- After an event all tasks still keep account. -/
theorem atRest_run (h : p.AtRest) (event : Event) : (event.run p).AtRest := by
  cases event with
  | begin work =>
      intro task htask
      obtain htask | htask := List.mem_append.mp htask
      · exact h task htask
      · rw [List.mem_singleton.mp htask]
        exact (work.accounted p.moment).2
  | goOn i replies =>
      obtain ⟨queries, k, hwaits, hlength, hrun⟩ | hrun := run_goOn p i replies
      · rw [hrun]
        intro task htask
        obtain htask | rfl := List.mem_or_eq_of_mem_set htask
        · exact h task htask
        · cases h _ (List.mem_of_getElem? hwaits) with
          | waits turns rests => exact rests replies p.moment hlength
      · rw [hrun]
        exact h
  | abandon i => exact fun task htask => h task (List.mem_of_mem_eraseIdx htask)
  | receive | close | aside | draw | wait => exact h

/-- **An event works on the routing table in steps that are due.** -/
theorem turns_run (h : p.AtRest) (event : Event) :
    Moment.Turns (event.Due p) p.moment (event.run p).moment := by
  cases event with
  | begin work => exact (work.accounted p.moment).1.mono fun step proposes => .proposed proposes
  | goOn i replies =>
      obtain ⟨queries, k, hwaits, hlength, hrun⟩ | hrun := run_goOn p i replies
      · rw [hrun]
        cases h _ (List.mem_of_getElem? hwaits) with
        | waits turns rests =>
            exact (turns replies p.moment hlength).mono fun step due => .replied ⟨hwaits⟩ due
      · rw [hrun]
        exact .refl _
  | receive source data =>
      obtain hsame | ⟨sender, hoffered⟩ := p.moment.node.table_receive p.moment.now source data
      · exact .of_eq (congrArg (Routing.Situation.mk · p.moment.now) hsame)
      · have happens : ((receive source data).run p).moment.situation =
            (Step.observe sender).run p.moment.situation :=
          congrArg (Routing.Situation.mk · p.moment.now) hoffered
        exact .one happens (.proposed (.observe sender))
  | wait duration => exact .one rfl (.waited duration)
  | abandon | close | aside | draw => exact .of_eq rfl

/-- **Whatever happens, all tasks keep account.** -/
theorem atRest_runAll (h : p.AtRest) (events : List Event) : (runAll p events).AtRest := by
  induction events generalizing p with
  | nil => exact h
  | cons event events ih => exact ih (atRest_run h event)

/-- Whatever happens, the routing table changes by steps none of which removes a member on
request. -/
theorem turns_runAll (h : p.AtRest) (events : List Event) :
    Moment.Turns (fun step => ∀ id, step ≠ .remove id) p.moment (runAll p events).moment := by
  induction events generalizing p with
  | nil => exact .refl _
  | cons event events ih =>
      exact ((turns_run h event).mono fun step due => due.ne_remove).trans (ih (atRest_run h event))

end Event

end Mainline
