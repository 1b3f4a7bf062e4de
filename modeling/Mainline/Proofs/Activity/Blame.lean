import Mainline.Proofs.Activity.Pool
import Mainline.Proofs.Routing.Failure
import Mainline.Simulation.Run

/-!
# Who is blamed

A failure should count against a member only if the member is at fault: it did not answer a query in
time, refused it or answered with something malformed, or it answered a probe under another id.
Failures that have local causes, such as a node that has been shut down, say nothing about the
member that was to be asked.

Lookups keep to this. An offer that asks questionable members does not: its probe tells only whether
a member has confirmed that it is alive, and so the member is failed, or evicted, for a query that
may not even have been sent. This module proves that there is no third way to be blamed.

## Main results

* `Activity.Due.blames`: for which replies a task fails a member.
* `blamed_for_replies_only`: how members fare in every course of events.
-/

namespace Mainline

open Routing (Step Situation)

namespace Activity

variable {α : Type} {task : Activity α} {replies : List Reply} {id : Key}

/-- The replies that a task goes on with **speak against** the contact with an id. -/
inductive SpeaksAgainst (task : Activity α) (replies : List Reply) (id : Key) : Prop
  /-- A lookup has asked it in vain, for reasons that are its own. -/
  | refused {σ : Type} {purpose : Purpose σ} {n : ℕ} {s : Search × σ} {f : Search × σ → Activity α}
      {asked : Contact} {e : Error} (round : task = (Lookup.fromQueries purpose n s).bind f)
      (failed : (asked, .error e) ∈ s.1.nextRound.1.zip replies) (speaks : e.isNodeFailure = true)
      (named : asked.id = id)
  /-- An offer has asked it in vain, for reasons that are its own. -/
  | unanswered {offered : Member} {asked : Contact} {questionable : List Contact}
      {f : Routing.Outcome → Activity α} {e : Error}
      (probe : task = (insertAsking offered (asked :: questionable)).bind f)
      (got : replies = [.error e]) (speaks : e.isNodeFailure = true) (named : asked.id = id)
  /-- It has answered the probe of an offer under another id. -/
  | misnamed {offered : Member} {asked : Contact} {questionable : List Contact}
      {f : Routing.Outcome → Activity α} {response : Krpc.Response}
      (probe : task = (insertAsking offered (asked :: questionable)).bind f)
      (got : replies = [.ok response]) (other : response.id ≠ asked.id) (named : asked.id = id)

/-- A task goes on with the failure of a probe of the contact with an id, and the failure has
**local** causes. -/
inductive FailsLocally (task : Activity α) (replies : List Reply) (id : Key) : Prop
  | intro {offered : Member} {asked : Contact} {questionable : List Contact}
      {f : Routing.Outcome → Activity α} {e : Error}
      (probe : task = (insertAsking offered (asked :: questionable)).bind f)
      (got : replies = [.error e]) (innocent : e.isNodeFailure = false) (named : asked.id = id)

end Activity

theorem Routing.Step.fails_iff {step : Step} {id : Key} :
    step.Fails id ↔ step = .markFailed id ∨ ∃ node, step = .resume node id false := by
  constructor
  · rintro (_ | node)
    · exact .inl rfl
    · exact .inr ⟨node, rfl⟩
  · rintro (rfl | ⟨node, rfl⟩)
    · exact .markFailed
    · exact .resume node

/-- A proposal fails nobody. -/
theorem Routing.Step.Proposes.not_fails {step : Step} (proposes : step.Proposes) (id : Key) :
    ¬ step.Fails id := by
  rw [Step.fails_iff]
  cases proposes <;> rintro (h | ⟨node, h⟩) <;> cases h

/-- **A task fails a member for the replies it goes on with**: they speak against the member, or
tell of a local failure of a probe. -/
theorem Activity.Due.blames {α : Type} {task : Activity α} {replies : List Reply} {step : Step}
    {id : Key} (due : task.Due replies step) (fails : step.Fails id) :
    task.SpeaksAgainst replies id ∨ task.FailsLocally replies id := by
  cases due with
  | proposed proposes => exact absurd fails (proposes.not_fails id)
  | failed round failed speaks =>
      obtain heq | ⟨node, heq⟩ := Step.fails_iff.mp fails
      · exact .inl (.refused round failed speaks (Step.markFailed.inj heq))
      · cases heq
  | @probed offered asked questionable f reply probe got =>
      obtain heq | ⟨node, heq⟩ := Step.fails_iff.mp fails
      · cases heq
      · obtain ⟨-, named, unconfirmed⟩ := Step.resume.inj heq
        cases reply with
        | ok response => exact .inl (.misnamed probe got (beq_eq_false_iff_ne.mp unconfirmed) named)
        | error e =>
            cases kind : e.isNodeFailure with
            | true => exact .inl (.unanswered probe got kind named)
            | false => exact .inr ⟨probe, got, kind, named⟩

/-- The steps of an event fail a member only if a task goes on that has been given reasons to. -/
theorem Event.Due.blames {p : Pool} {event : Event} {step : Step} {id : Key}
    (due : event.Due p step) (fails : step.Fails id) :
    ∃ task replies, event.GoesOn p task replies ∧
      (task.SpeaksAgainst replies id ∨ task.FailsLocally replies id) := by
  cases due with
  | proposed proposes => exact absurd fails (proposes.not_fails id)
  | replied goesOn due => exact ⟨_, _, goesOn, due.blames fails⟩
  | waited duration =>
      obtain heq | ⟨node, heq⟩ := Step.fails_iff.mp fails <;> cases heq

/-- **A member is blamed for replies only.** Take a node whose routing table is well formed, and let
it do whatever it can be given to do, in any order and with any replies, until some event happens.

The event changes the table by steps. A member against which no reply speaks that a task goes on
with, and of which no probe has failed for local reasons, is still held after the event with no more
failures than before, or it was bad and one of the steps has evicted it.

The exception for local failures is needed. An offer that asks a member waits for the reply to a
ping; if that is any failure at all, the member is failed once more when the offer goes on, or is
evicted. -/
theorem blamed_for_replies_only (start : Moment) (h : start.node.table.WellFormed) :
    (∀ (events : List Event) (event : Event),
      let p := Event.runAll ⟨start, []⟩ events
      let p' := event.run p
      ∃ steps, p'.moment.situation = Step.runAll p.moment.situation steps ∧
        ∀ m ∈ p.moment.node.table.members,
          (∀ task replies, event.GoesOn p task replies →
            ¬ task.SpeaksAgainst replies m.id ∧ ¬ task.FailsLocally replies m.id) →
          (∃ m' ∈ p'.moment.node.table.members, m'.id = m.id ∧ m'.failures ≤ m.failures) ∨
            m.standing p.moment.now = .bad ∧ ∃ earlier, earlier <+: steps ∧
              m.id ∉ (Step.runAll p.moment.situation earlier).table.members.map Member.id) ∧
    ∀ (offered : Member) (asked : Contact) (questionable : List Contact),
      ∃ k, Activity.insertAsking offered (asked :: questionable) = .ask [(asked.address, .ping)] k ∧
        ∀ (events : List Event) (e : Error),
          let later := (Event.runAll ⟨start, []⟩ events).moment
          let table := ((k [.error e]).proceed later).1.node.table
          ∀ m ∈ later.node.table.members, m.id = asked.id →
            m.fail ∈ table.members ∨ m.id ∉ table.members.map Member.id := by
  have hrest : Pool.AtRest ⟨start, []⟩ := nofun
  have hformed : ∀ events, (Event.runAll ⟨start, []⟩ events).moment.node.table.WellFormed := by
    intro events
    obtain ⟨steps, hrun, -⟩ := Event.turns_runAll hrest events
    have htable : (Event.runAll ⟨start, []⟩ events).moment.node.table =
        (Step.runAll start.situation steps).table := congrArg Situation.table hrun
    rw [htable]
    exact Step.wellFormed_runAll h steps
  refine ⟨fun events event => ?_, fun offered asked questionable => ?_⟩
  · intro p p'
    obtain ⟨steps, hrun, due⟩ := Event.turns_run (Event.atRest_runAll hrest events) event
    refine ⟨steps, hrun, fun m held spared => ?_⟩
    have htable : p'.moment.node.table = (Step.runAll p.moment.situation steps).table :=
      congrArg Situation.table hrun
    rw [htable]
    refine Step.spared_runAll (hformed events) (fun step hstep => (due step hstep).ne_remove) held ?_
    intro step hstep fails
    obtain ⟨task, replies, goesOn, hspeaks | hlocal⟩ := (due step hstep).blames fails
    · exact (spared task replies goesOn).1 hspeaks
    · exact (spared task replies goesOn).2 hlocal
  · obtain ⟨k, hwaits, hgoesOn⟩ := Activity.insertAsking_cons offered asked questionable
    refine ⟨k, hwaits, fun events e => ?_⟩
    intro later table m held hid
    have htable : table = (later.node.table.resume later.now offered m.id false).1 := by
      simp only [table, hgoesOn, Activity.confirms, hid, Activity.fst_proceed_afterProbe]
      rfl
    rw [htable]
    exact (hformed events).failed_or_lost_resume later.now offered held

/-- A member is asked because of an offer, but the node is shut down meanwhile: the member is failed
or evicted. -/
theorem blamed_for_shutdown :
    let contact (n : ℕ) : Contact :=
      ⟨⟨BitVec.allOnes 160 - BitVec.ofNat 160 n⟩, .v4 ⟨10, 0, 0, UInt8.ofNat n⟩ 6881⟩
    let node := (Node.create ⟨0⟩ (.v4 ⟨10, 0, 0, 1⟩ 6881) {} 0 ⟨[], 2⟩).1
    let start : Moment := ⟨{ node with table := (node.table.observe 0 (.hearsay (contact 2))).1 }, 0,
      ⟨[], 3⟩⟩
    let later := (Event.runAll ⟨start, []⟩ [.wait 1000, .close]).moment
    start.node.table.WellFormed ∧ later.node.isClosed = true ∧
      .hearsay (contact 2) ∈ later.node.table.members ∧ Error.shutdown.isNodeFailure = false ∧
      ∃ k, Activity.insertAsking (.active (contact 3) 0) [contact 2] =
          .ask [((contact 2).address, .ping)] k ∧
        let table := ((k [.error .shutdown]).proceed later).1.node.table
        (Member.hearsay (contact 2)).fail ∈ table.members ∨
          (contact 2).id ∉ table.members.map Member.id := by
  intro contact node start later
  have h : start.node.table.WellFormed :=
    Step.wellFormed_run (s := ⟨node.table, 0⟩) (Routing.Table.wellFormed_empty ..)
      (.observe (.hearsay (contact 2)))
  have held : .hearsay (contact 2) ∈ later.node.table.members := by decide +kernel
  obtain ⟨k, hwaits, law⟩ :=
    (blamed_for_replies_only start h).2 (.active (contact 3) 0) (contact 2) []
  refine ⟨h, by decide +kernel, held, rfl, k, hwaits, ?_⟩
  exact law [.wait 1000, .close] .shutdown (.hearsay (contact 2)) held rfl

end Mainline

namespace Mainline.Simulation

/-- In a world: a node knows one contact, which may be alive or not, and is shut down. Then it is
offered another node. Its probe of the contact fails because no query can be sent any more, and the
contact is evicted. -/
theorem evicted_unasked :
    let contact (n : ℕ) : Contact :=
      ⟨⟨BitVec.allOnes 160 - BitVec.ofNat 160 n⟩, .v4 ⟨10, 0, 0, UInt8.ofNat n⟩ 1000⟩
    let w := (World.empty {}).addNode ⟨0⟩ (.v4 ⟨10, 0, 0, 1⟩ 1000) { bucketCapacity := 1 }
    let known := ((w.node 0).table.observe w.now (.hearsay (contact 2))).1
    let w := (w.setNode 0 { w.node 0 with table := known }).close 0
    let node := w.node 0
    let offered : Member := .active (contact 3) w.now
    let w' := (w.perform (World.request 0 (.insert offered))).1
    (node.table.members = [.hearsay (contact 2)] ∧
      (node.table.place w.now offered).2 = .contested [contact 2]) ∧
    ((node.transactions.begin w.now (contact 2).address .ping 1 w.entropy.transactions).1 =
        some (.error .shutdown) ∧ Error.shutdown.isNodeFailure = false) ∧
    (w'.node 0).table.members = [offered] := by
  decide +kernel

end Mainline.Simulation
