import Mainline.Proofs.Lookup.Rounds
import Mainline.Proofs.Routing.Step
import Mainline.Request

/-!
# What activities do to the routing table

Between two waits an activity works on the routing table in steps, and for each of them there is a
reason. It may propose a node whenever it likes. But it counts a failure against a member only when
it goes on with replies that it has been waiting for, and which replies these can be depends on
what it was doing: a lookup goes by the kind of failure, and an offer that asks a questionable
member goes by whether the member has confirmed that it is alive.

An activity *keeps account* if all its steps are due in this sense, in whatever course it takes.
Everything that a node can be asked to do keeps account.

## Main results

* `Accounted.bind`: one activity after the other keeps account if both do.
* `accounted_run`, `accounted_insert`: so do lookups, and offers to the routing table.
* `accounted_request`: so does every request.
-/

namespace Mainline

open Routing (Step Situation)

/-- The routing table at a moment, and the time. -/
def Moment.situation (m : Moment) : Situation :=
  ⟨m.node.table, m.now⟩

/-- A moment with another routing table. -/
def Moment.withTable (m : Moment) (table : Routing.Table) : Moment :=
  { m with node := { m.node with table } }

/-- One moment **turns into** another by steps that have a property. -/
def Moment.Turns (P : Step → Prop) (m m' : Moment) : Prop :=
  ∃ steps, m'.situation = Step.runAll m.situation steps ∧ ∀ step ∈ steps, P step

namespace Moment.Turns

variable {P Q : Step → Prop} {m m' m'' : Moment}

theorem of_eq (h : m'.situation = m.situation) : Turns P m m' :=
  ⟨[], h, nofun⟩

theorem refl (m : Moment) : Turns P m m :=
  of_eq rfl

theorem one {step : Step} (h : m'.situation = step.run m.situation) (hstep : P step) :
    Turns P m m' := by
  refine ⟨[step], h, fun other hother => ?_⟩
  rw [List.mem_singleton.mp hother]
  exact hstep

theorem trans (h : Turns P m m') (h' : Turns P m' m'') : Turns P m m'' := by
  obtain ⟨steps, hrun, hsteps⟩ := h
  obtain ⟨steps', hrun', hsteps'⟩ := h'
  refine ⟨steps ++ steps', ?_, fun step hstep => ?_⟩
  · rw [hrun', hrun, Step.runAll_append]
  · exact (List.mem_append.mp hstep).elim (hsteps step) (hsteps' step)

theorem mono (hPQ : ∀ step, P step → Q step) (h : Turns P m m') : Turns Q m m' := by
  obtain ⟨steps, hrun, hsteps⟩ := h
  exact ⟨steps, hrun, fun step hstep => hPQ step (hsteps step hstep)⟩

end Moment.Turns

/-- The step **proposes** a node to the table and counts no failure against anybody. -/
inductive Routing.Step.Proposes : Step → Prop
  | observe (node : Member) : Proposes (.observe node)
  | place (node : Member) : Proposes (.place node)

namespace Activity

/-- Does a reply **confirm** that a contact is alive: is it a response under the contact's id? -/
def confirms (contact : Contact) : Reply → Bool
  | .ok response => response.id == contact.id
  | .error _ => false

/-- The steps that are **due** when a task goes on with replies. -/
inductive Due {α : Type} (task : Activity α) (replies : List Reply) : Step → Prop
  | proposed {step : Step} (proposes : step.Proposes) : Due task replies step
  /-- A lookup counts a failure against a contact that it has asked in this round, if the failure
  speaks against the contact. -/
  | failed {σ : Type} {purpose : Purpose σ} {n : ℕ} {s : Search × σ} {f : Search × σ → Activity α}
      {asked : Contact} {e : Error} (round : task = (Lookup.fromQueries purpose n s).bind f)
      (failed : (asked, .error e) ∈ s.1.nextRound.1.zip replies) (speaks : e.isNodeFailure = true) :
      Due task replies (.markFailed asked.id)
  /-- An offer goes on when the member that it has asked confirms that it is alive, or does not. -/
  | probed {offered : Member} {asked : Contact} {questionable : List Contact}
      {f : Routing.Outcome → Activity α} {reply : Reply}
      (probe : task = (insertAsking offered (asked :: questionable)).bind f)
      (got : replies = [reply]) : Due task replies (.resume offered asked.id (confirms asked reply))

/-- A task that is over, or waits for replies and **keeps account** whatever they are. -/
inductive AtRest {α : Type} : Activity α → Prop
  | ended (a : α) : AtRest (done a)
  | waits {queries : List (Address × Krpc.Query)} {k : List Reply → Activity α}
      (turns : ∀ replies m, replies.length = queries.length →
        Moment.Turns (Due (ask queries k) replies) m ((k replies).proceed m).1)
      (rests : ∀ replies m, replies.length = queries.length → AtRest ((k replies).proceed m).2) :
      AtRest (ask queries k)

/-- The activity **keeps account**: whenever it begins, it proposes nodes at most until it is over
or waits, and keeps account from there on. -/
def Accounted {α : Type} (x : Activity α) : Prop :=
  ∀ m, Moment.Turns Step.Proposes m (x.proceed m).1 ∧ AtRest (x.proceed m).2

variable {α β : Type}

/-! ### One activity after the other -/

/-- What is due stays due when something else is to be done afterwards. -/
theorem Due.bind {task : Activity α} {replies : List Reply} {step : Step}
    (due : Due task replies step) (f : α → Activity β) : Due (task.bind f) replies step := by
  cases due with
  | proposed proposes => exact .proposed proposes
  | failed round failed speaks =>
      rw [round, bind_assoc]
      exact .failed rfl failed speaks
  | probed probe got =>
      rw [probe, bind_assoc]
      exact .probed rfl got

/-- A task is followed by an activity that keeps account. The induction is on the task, which goes
on to another wait or to its end, where the activity begins. -/
theorem AtRest.bind {task : Activity α} (h : AtRest task) {f : α → Activity β}
    (hf : ∀ a, Accounted (f a)) : Accounted (task.bind f) := by
  induction h with
  | ended a => exact hf a
  | @waits queries k turns rests ih =>
      intro m
      refine ⟨.refl m, .waits (fun replies m hlength => ?_) fun replies m hlength => ?_⟩
      · rw [proceed_bind]
        refine ((turns replies m hlength).mono fun step due => due.bind f).trans ?_
        exact (ih replies m hlength _).1.mono fun step proposes => .proposed proposes
      · rw [proceed_bind]
        exact (ih replies m hlength _).2

/-- **One activity after the other** keeps account if both do. -/
theorem Accounted.bind {x : Activity α} {f : α → Activity β} (hx : Accounted x)
    (hf : ∀ a, Accounted (f a)) : Accounted (x.bind f) := by
  intro m
  rw [proceed_bind]
  obtain ⟨turns, rests⟩ := hx m
  obtain ⟨turns', rests'⟩ := rests.bind hf (x.proceed m).1
  exact ⟨turns.trans turns', rests'⟩

/-! ### Activities that leave the table alone -/

theorem accounted_done (a : α) : Accounted (done a) :=
  fun m => ⟨.refl m, .ended a⟩

theorem accounted_node : Accounted node :=
  fun m => ⟨.refl m, .ended _⟩

theorem accounted_nodeAndTime : Accounted nodeAndTime :=
  fun m => ⟨.refl m, .ended _⟩

theorem accounted_sampleKey (region : Prefix) : Accounted (sampleKey region) :=
  fun _ => ⟨.of_eq rfl, .ended _⟩

theorem accounted_reportPeers (infoHash : Key) (peers : List Address) :
    Accounted (reportPeers infoHash peers) :=
  fun m => ⟨.refl m, .ended ()⟩

/-- An activity that waits keeps account if it does so whatever the replies are. -/
theorem accounted_ask {queries : List (Address × Krpc.Query)} {k : List Reply → Activity α}
    (h : ∀ replies, Accounted (k replies)) : Accounted (ask queries k) := by
  intro m
  refine ⟨.refl m, .waits (fun replies m _ => ?_) fun replies m _ => (h replies m).2⟩
  exact (h replies m).1.mono fun step proposes => .proposed proposes

theorem accounted_askAll (queries : List (Address × Krpc.Query)) : Accounted (askAll queries) :=
  accounted_ask accounted_done

theorem accounted_query (address : Address) (query : Krpc.Query) :
    Accounted (Activity.query address query) := by
  refine accounted_ask fun replies => ?_
  cases replies with
  | nil => exact accounted_done _
  | cons reply replies => exact accounted_done reply

theorem accounted_ping (address : Address) : Accounted (ping address) :=
  (accounted_query address .ping).bind fun _ => accounted_done _

theorem accounted_probe (contact : Contact) : Accounted (probe contact) := by
  refine (accounted_ping contact.address).bind fun reply => ?_
  cases reply with
  | error e => exact accounted_done false
  | ok id => exact accounted_done (id == contact.id)

/-! ### Offers -/

/-- How an offer goes on after a member has been asked. -/
def afterProbe (offered : Member) (questionable : List Contact) :
    Option Routing.Outcome → Activity Routing.Outcome
  | some outcome => done outcome
  | none => insertAsking offered questionable

/-- An offer waits for the member that it asks, and then goes on at once. -/
theorem insertAsking_cons (offered : Member) (asked : Contact) (questionable : List Contact) :
    ∃ k, insertAsking offered (asked :: questionable) = ask [(asked.address, .ping)] k ∧
      ∀ reply m, (k [reply]).proceed m =
        let resumed := m.node.table.resume m.now offered asked.id (confirms asked reply)
        (afterProbe offered questionable resumed.2).proceed (m.withTable resumed.1) := by
  refine ⟨_, rfl, fun reply m => ?_⟩
  cases reply <;> rfl

/-- An offer that goes on asks the next member or is over, and does not change the node before it
has to wait again. -/
theorem fst_proceed_afterProbe (offered : Member) (questionable : List Contact)
    (outcome? : Option Routing.Outcome) (m : Moment) :
    ((afterProbe offered questionable outcome?).proceed m).1 = m := by
  cases outcome? with
  | some outcome => rfl
  | none =>
      cases questionable with
      | nil => rfl
      | cons asked questionable =>
          obtain ⟨k, hwaits, -⟩ := insertAsking_cons offered asked questionable
          rw [afterProbe, hwaits]
          rfl

theorem accounted_insertAsking (offered : Member) (questionable : List Contact) :
    Accounted (insertAsking offered questionable) := by
  induction questionable with
  | nil => exact accounted_done Routing.Outcome.rejected
  | cons asked questionable ih =>
      obtain ⟨k, hwaits, hgoesOn⟩ := insertAsking_cons offered asked questionable
      have hafter : ∀ outcome?, Accounted (afterProbe offered questionable outcome?) := by
        rintro (_ | outcome)
        · exact ih
        · exact accounted_done outcome
      intro m
      rw [hwaits]
      refine ⟨.refl m, .waits (fun replies m hlength => ?_) fun replies m hlength => ?_⟩
      all_goals obtain ⟨reply, rfl⟩ := List.length_eq_one_iff.mp hlength
      · have due : Due (ask [(asked.address, .ping)] k) [reply]
            (.resume offered asked.id (confirms asked reply)) := by
          rw [← hwaits]
          exact .probed (bind_done _).symm rfl
        have resumed : Moment.Turns (Due (ask [(asked.address, .ping)] k) [reply]) m (m.withTable
            (m.node.table.resume m.now offered asked.id (confirms asked reply)).1) := .one rfl due
        rw [hgoesOn, fst_proceed_afterProbe]
        exact resumed
      · rw [hgoesOn]
        exact (hafter _ _).2

/-- An offer is placed at once. -/
theorem proceed_insert (offered : Member) (m : Moment) :
    (insert offered).proceed m =
      let placed := m.node.table.place m.now offered
      (match placed.2 with
        | .settled outcome => done outcome
        | .contested questionable => insertAsking offered questionable).proceed
        (m.withTable placed.1) := by
  rfl

/-- **Offers to the routing table keep account.** -/
theorem accounted_insert (offered : Member) : Accounted (insert offered) := by
  intro m
  rw [proceed_insert]
  have hplaced : Moment.Turns Step.Proposes m (m.withTable (m.node.table.place m.now offered).1) :=
    .one rfl (.place offered)
  dsimp only
  cases (m.node.table.place m.now offered).2 with
  | settled outcome => exact ⟨hplaced, .ended outcome⟩
  | contested questionable =>
      obtain ⟨turns, rests⟩ := accounted_insertAsking offered questionable
        (m.withTable (m.node.table.place m.now offered).1)
      exact ⟨hplaced.trans turns, rests⟩

/-! ### Lookups -/

variable {σ : Type} {purpose : Purpose σ} {s : Search × σ}

/-- The replies of a round are entered into the table in steps that are due. -/
theorem turns_recordAll {task : Activity α} {f : Search × σ → Activity α} {n : ℕ}
    (round : task = (Lookup.fromQueries purpose n s).bind f) {replies : List Reply}
    (localId : Key) {entered : List (Contact × Reply)}
    (hentered : entered ⊆ s.1.nextRound.1.zip replies) (m : Moment) :
    Moment.Turns (Due task replies) m
      (m.withTable (Lookup.recordAll m.node.table localId m.now entered)) := by
  induction entered generalizing m with
  | nil => exact .refl m
  | cons p entered ih =>
      obtain ⟨asked, reply⟩ := p
      obtain ⟨hmem, hrest⟩ := List.cons_subset.mp hentered
      have first : Moment.Turns (Due task replies) m
          (m.withTable (Lookup.record m.node.table localId m.now asked reply)) := by
        cases reply with
        | ok response =>
            rw [Lookup.record]
            split
            · exact .refl m
            · exact .one rfl (.proposed (.observe _))
        | error e =>
            rw [Lookup.record]
            split
            · next speaks => exact .one rfl (.failed round hmem speaks)
            · exact .refl m
      exact first.trans (ih hrest _)

/-- **Lookups keep account.** -/
theorem accounted_run (purpose : Purpose σ) (n : ℕ) (s : Search × σ) :
    Accounted (Lookup.run purpose n s) := by
  induction n generalizing s with
  | zero => exact accounted_done s
  | succ n ih =>
      intro m
      rw [Lookup.run_succ, proceed]
      split
      · exact ⟨.refl m, .ended s⟩
      · split
        · exact ⟨.refl m, .ended s⟩
        · have hafter : ∀ replies, Accounted
              (if (Lookup.afterRound purpose s replies).1.isStuck s.1.best? then
                done (Lookup.afterRound purpose s replies)
              else Lookup.run purpose n (Lookup.afterRound purpose s replies)) := by
            intro replies
            split
            · exact accounted_done _
            · exact ih _
          refine ⟨.refl m, .waits (fun replies m _ => ?_) fun replies m _ => ?_⟩
          · refine Moment.Turns.trans (turns_recordAll (bind_done _).symm m.node.localId
              (List.Subset.refl _) m) ?_
            exact (hafter replies _).1.mono fun step proposes => .proposed proposes
          · exact (hafter replies _).2

theorem accounted_start (target : Key) (purpose : Purpose σ) (nothing : σ) (seeds : Lookup.Seeds) :
    Accounted (Lookup.start target purpose nothing seeds) :=
  accounted_node.bind fun _ => accounted_run purpose _ _

theorem accounted_nodes (target : Key) (seeds : Lookup.Seeds) :
    Accounted (Lookup.nodes target seeds) :=
  (accounted_start target _ _ seeds).bind fun _ => accounted_done _

/-! ### Upkeep and requests -/

theorem accounted_insertAll (contacts : List Contact) : Accounted (Upkeep.insertAll contacts) := by
  induction contacts with
  | nil => exact accounted_done 0
  | cons contact contacts ih =>
      refine accounted_nodeAndTime.bind fun _ => ?_
      refine (accounted_insert _).bind fun _ => ?_
      exact ih.bind fun _ => accounted_done _

theorem accounted_refreshBucket (i : Fin 160) : Accounted (Upkeep.refreshBucket i) := by
  refine accounted_node.bind fun _ => ?_
  refine (accounted_sampleKey _).bind fun target => ?_
  exact (accounted_nodes target .table).bind fun search => accounted_insertAll search.closest

theorem accounted_join (contact : Contact) : Accounted (Upkeep.join contact) := by
  refine accounted_node.bind fun _ => ?_
  refine (accounted_nodes _ _).bind fun _ => ?_
  refine accounted_nodeAndTime.bind fun (node, now) => ?_
  dsimp only
  split
  · exact accounted_done _
  · refine (accounted_insert _).bind fun _ => ?_
    exact accounted_node.bind fun _ => accounted_done _

theorem accounted_joinThrough (addresses : List Address) :
    Accounted (Upkeep.joinThrough addresses) := by
  induction addresses with
  | nil => exact accounted_done _
  | cons address addresses ih =>
      refine (accounted_ping address).bind fun reply => ?_
      split
      · exact accounted_done _
      · exact ih
      · refine (accounted_join _).bind fun joined => ?_
        split
        · exact accounted_done _
        · exact ih

theorem accounted_bootstrap : Accounted Upkeep.bootstrap := by
  refine accounted_node.bind fun _ => ?_
  split
  · exact accounted_done _
  · exact accounted_joinThrough _

theorem accounted_lookupPeers (infoHash : Key) : Accounted (Upkeep.lookupPeers infoHash) := by
  refine (accounted_start infoHash _ _ .table).bind fun (search, found) => ?_
  dsimp only
  split
  · exact (accounted_reportPeers _ _).bind fun _ => accounted_done _
  · exact accounted_done _

theorem accounted_lookupRegistered : Accounted Upkeep.lookupRegistered :=
  accounted_node.bind fun _ => accounted_done _

theorem accounted_unlessClosed {x : Activity Result} (h : Accounted x) :
    Accounted (unlessClosed x) := by
  refine accounted_node.bind fun node => ?_
  split
  · exact accounted_done _
  · exact h

theorem accounted_withResult {x : Activity Result} (h : Accounted x) :
    Accounted (Request.withResult x) :=
  h.bind fun _ => accounted_done _

theorem accounted_withCrew {x : Activity (Except Error Crew)} (h : Accounted x) :
    Accounted (Request.withCrew x) := by
  refine h.bind fun crew => ?_
  split
  · exact accounted_done _
  · exact accounted_done _

/-- **Requests keep account**, each of them. -/
theorem accounted_request (request : Request) : Accounted request.activity := by
  cases request with
  | bootstrap => exact accounted_withCrew accounted_bootstrap
  | join contact => exact accounted_withCrew (accounted_join contact)
  | refreshStale threshold =>
      refine Accounted.bind ?_ fun _ => accounted_done _
      exact accounted_nodeAndTime.bind fun _ => accounted_done _
  | ping address =>
      refine accounted_withResult ((accounted_ping address).bind fun reply => ?_)
      split
      · exact accounted_done _
      · exact accounted_done _
  | findNode target =>
      refine accounted_withResult (accounted_unlessClosed ?_)
      exact (accounted_nodes target .table).bind fun _ => accounted_done _
  | getPeers infoHash =>
      refine accounted_withResult (accounted_unlessClosed ?_)
      exact (accounted_lookupPeers infoHash).bind fun _ => accounted_done _
  | announce infoHash port =>
      refine accounted_withResult (accounted_unlessClosed ?_)
      refine (accounted_lookupPeers infoHash).bind fun _ => ?_
      exact (accounted_askAll _).bind fun _ => accounted_done _
  | query address question =>
      refine accounted_withResult ((accounted_query address question).bind fun reply => ?_)
      split
      · exact accounted_done _
      · exact accounted_done _
  | probe contact =>
      exact accounted_withResult ((accounted_probe contact).bind fun _ => accounted_done _)
  | insert offered =>
      exact accounted_withResult ((accounted_insert offered).bind fun _ => accounted_done _)
  | refreshBucket bucket =>
      exact accounted_withResult ((accounted_refreshBucket bucket).bind fun _ => accounted_done _)
  | lookupNodes target seeds =>
      exact accounted_withResult ((accounted_nodes target seeds).bind fun _ => accounted_done _)
  | lookupPeers infoHash target seeds =>
      refine accounted_withResult ((accounted_start target _ _ seeds).bind fun _ => ?_)
      exact accounted_done _

end Activity

end Mainline
