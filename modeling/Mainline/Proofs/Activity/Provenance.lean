import Mainline.Proofs.Activity.Site
import Mainline.Proofs.Activity.Vouching

/-!
# Where the contacts in the routing table come from

A node hears of contacts from anybody, but it should store those only that it has heard from. At a
node at work, what vouches for a contact is a datagram (`Traffic.Vouches`), and from there to the
routing table it is a long way: the books hand the reply over to its query, the query ends in a turn
of its job, the job goes on when all its queries have ended, and what it has made of the replies may
be stored much later. `Site.Faithful` says what holds of a site on that way, and every happening
keeps it.

## Main results

* `World.advance_faithful`: what a task leaves when it goes on.
* `Site.Faithful.run`: what one happening keeps.
* `members_vouched_for`: whoever is in the routing table has been heard from.
-/

namespace Mainline.Simulation

open Activity (Stores Anything)

variable {V V' : Set Contact}

/-! ### What is kept for the jobs -/

/-- A slot is **faithful** to a query to an address: the books promise an honest reply, or one has
been got. -/
inductive Slot.Faithful (V : Set Contact) (t : Transactions) (address : Address) : Slot → Prop
  | drawing : Faithful V t address .drawing
  | waiting {number : ℕ} (awaits : t.Awaits V number address) : Faithful V t address (.waiting number)
  | filled {reply : Reply} (honest : Honest V address reply) : Faithful V t address (.filled reply)

/-- All slots are faithful to their queries. -/
abbrev Slot.AllFaithful (V : Set Contact) (t : Transactions) (queries : List (Address × Krpc.Query))
    (slots : List Slot) : Prop :=
  List.Forall₂ (fun query slot => slot.Faithful V t query.1) queries slots

/-- A job is **faithful**: what is left of it stores vouched contacts only, and all that it waits
for is faithful. -/
inductive JobState.Faithful (V : Set Contact) (t : Transactions) : JobState Unit → Prop
  | fresh {x : Activity Unit} (stores : x.Stores Anything V) : Faithful V t (.fresh x)
  | waiting {queries : List (Address × Krpc.Query)} {slots : List Slot}
      {resume : List Reply → Activity Unit}
      (faithful : Slot.AllFaithful V t queries slots)
      (stores : (Activity.ask queries resume).Stores Anything V) :
      Faithful V t (.waiting ⟨slots, resume⟩)

theorem Slot.Faithful.imp {t t' : Transactions} {address : Address} {slot : Slot}
    (h : slot.Faithful V t address) (hV : V ⊆ V')
    (awaits : ∀ number, t.Awaits V number address → t'.Awaits V' number address) :
    slot.Faithful V' t' address := by
  cases h with
  | drawing => exact .drawing
  | waiting h => exact .waiting (awaits _ h)
  | filled h => exact .filled (h.mono hV)

theorem JobState.Faithful.imp {t t' : Transactions} {job : JobState Unit} (h : job.Faithful V t)
    (hV : V ⊆ V')
    (awaits : ∀ number address, t.Awaits V number address → t'.Awaits V' number address) :
    job.Faithful V' t' := by
  cases h with
  | fresh stores => exact .fresh (stores.mono hV)
  | waiting faithful stores =>
      exact .waiting (faithful.imp fun query _ h => h.imp hV (awaits · query.1)) (stores.mono hV)

/-- Once all queries have ended, the replies are honest. -/
theorem honest_replies {t : Transactions} {queries : List (Address × Krpc.Query)}
    {slots : List Slot} {replies : List Reply}
    (h : Slot.AllFaithful V t queries slots)
    (hreplies : World.replies? slots = some replies) :
    List.Forall₂ (fun query reply => Honest V query.1 reply) queries replies := by
  induction h generalizing replies with
  | nil =>
      obtain rfl := Option.some.inj hreplies
      exact .nil
  | cons hfirst hrest ih =>
      cases hfirst with
      | drawing | waiting => cases hreplies
      | filled honest =>
          obtain ⟨rest, hrest, rfl⟩ := Option.map_eq_some_iff.mp hreplies
          exact .cons honest (ih hrest)

namespace World

variable {w w' : World} {i : ℕ}

/-- A node's own doing keeps the promises of its books. -/
theorem Proceeds.awaits (h : Proceeds Traffic.Event.Own i w w')
    (sound : (w.node i).transactions.Sound) {number : ℕ} {address : Address}
    (awaits : (w.node i).transactions.Awaits V number address) :
    (w'.node i).transactions.Awaits V number address := by
  have kept : (w'.trafficAt i).books.Sound ∧ (w'.trafficAt i).books.Awaits V number address := by
    refine h.keep (p := fun s => s.books.Sound ∧ s.books.Awaits V number address)
      ⟨sound, awaits⟩ fun {s e} own hs => ⟨Traffic.sound_run hs.1 e, ?_⟩
    -- nothing that the node does itself deals with a message, so nobody is vouched for
    refine hs.2.run hs.1 e subset_rfl ?_
    rintro contact ⟨rfl, -⟩
    cases own with
    | onQueries onQueries => cases onQueries
  exact kept.2

/-- Slots stay faithful while the node does something of its own. -/
theorem Proceeds.slots (h : Proceeds Traffic.Event.Own i w w')
    (sound : (w.node i).transactions.Sound) {queries : List (Address × Krpc.Query)}
    {slots : List Slot} (faithful : Slot.AllFaithful V (w.node i).transactions queries slots) :
    Slot.AllFaithful V (w'.node i).transactions queries slots :=
  faithful.imp fun _ _ h' => h'.imp subset_rfl fun _ => h.awaits sound

/-- The turn of a query that is waited for. -/
theorem turnQuery_faithful (hi : i < w.nodes.length) (sound : (w.node i).transactions.Sound)
    {number : ℕ} {address : Address} (awaits : (w.node i).transactions.Awaits V number address) :
    (match (w.turnQuery i number).2 with
      | some reply => Slot.filled reply
      | none => .waiting number).Faithful V ((w.turnQuery i number).1.node i).transactions
        address := by
  have hreply := (traffic_turnQuery hi number).2
  split
  · next reply heq => exact .filled (awaits.honest_turn sound (hreply.symm.trans heq))
  · exact .waiting ((proceeds_turnQuery hi number).own.awaits sound awaits)

/-- **A query is begun**: it is waited for, or it has ended already. -/
theorem beginQuery_faithful (V : Set Contact) (hi : i < w.nodes.length)
    (sound : (w.node i).transactions.Sound) (waker : Waker) (address : Address)
    (query : Krpc.Query) :
    (w.beginQuery i waker address query).2.Faithful V
      ((w.beginQuery i waker address query).1.node i).transactions address := by
  obtain ⟨hslot | ⟨e, hslot⟩, -⟩ |
    ⟨w₁, draws, stream, number, transaction, asks, follows, same, hslot⟩ :=
      traffic_beginQuery hi waker address query
  · rw [hslot]
    exact .drawing
  · rw [hslot]
    exact .filled (honest_error V address e)
  · have entered : Proceeds Traffic.Event.OnQueries i w w₁ :=
      .one (.ask address query draws stream) follows
    have awaits : (w₁.node i).transactions.Awaits V number address := by
      obtain ⟨rfl, -, -, hbooks⟩ := asks.books_eq
      have hbooks' : (w₁.node i).transactions =
          (w.node i).transactions.enter transaction w.now address query.method :=
        (congrArg (·.books) follows.traffic_eq).trans hbooks
      rw [hbooks']
      exact sound.awaits_enter V transaction w.now address query.method
    have turned := turnQuery_faithful (entered.lt hi) (entered.sound sound) awaits
    have hbooks := congrArg (·.node.transactions) (same.traffic i)
    rw [hslot]
    exact hbooks.symm ▸ turned

theorem beginQueries_faithful (V : Set Contact) (hi : i < w.nodes.length)
    (sound : (w.node i).transactions.Sound) (waker : Waker)
    (queries : List (Address × Krpc.Query)) :
    Slot.AllFaithful V ((w.beginQueries i waker queries).1.node i).transactions queries
      (w.beginQueries i waker queries).2 := by
  induction queries generalizing w with
  | nil => exact .nil
  | cons p queries ih =>
      obtain ⟨address, query⟩ := p
      have begun := proceeds_beginQuery hi waker address query
      have first := beginQuery_faithful V hi sound waker address query
      have others := proceeds_beginQueries (begun.lt hi) waker queries
      refine .cons ?_ (ih (begun.lt hi) (begun.sound sound))
      exact first.imp subset_rfl fun _ => others.own.awaits (begun.sound sound)

theorem turnSlots_faithful (hi : i < w.nodes.length) (sound : (w.node i).transactions.Sound)
    {queries : List (Address × Krpc.Query)} {slots : List Slot}
    (h : Slot.AllFaithful V (w.node i).transactions queries slots) :
    Slot.AllFaithful V ((w.turnSlots i slots).1.node i).transactions queries
      (w.turnSlots i slots).2 := by
  induction slots generalizing w queries with
  | nil =>
      cases h
      exact .nil
  | cons slot slots ih =>
      obtain ⟨query, queries, hfirst, hrest, rfl⟩ := List.forall₂_cons_right_iff.mp h
      have keep : ∀ {w : World} {slot : Slot}, i < w.nodes.length →
          (w.node i).transactions.Sound → slot.Faithful V (w.node i).transactions query.1 →
            slot.Faithful V ((w.turnSlots i slots).1.node i).transactions query.1 :=
        fun hi sound h => h.imp subset_rfl fun _ => (proceeds_turnSlots hi slots).own.awaits sound
      cases hfirst with
      | drawing => exact .cons .drawing (ih hi sound hrest)
      | filled honest => exact .cons (.filled honest) (ih hi sound hrest)
      | @waiting number awaits =>
          have turned := proceeds_turnQuery hi number
          have first := keep (turned.lt hi) (turned.sound sound)
            (turnQuery_faithful hi sound awaits)
          have rest := ih (turned.lt hi) (turned.sound sound) (turned.own.slots sound hrest)
          rw [turnSlots]
          rcases hturn : w.turnQuery i number with ⟨w₁, _ | reply⟩
          all_goals
            rw [hturn] at first rest
            exact .cons first rest

/-! ### Jobs that go on -/

/-- What a task leaves when it has gone on: its node has done something of its own, the table is
vouched for, and what is left to do is faithful. -/
structure Left (V : Set Contact) (i : ℕ) (w : World) (result : World × Progress Unit) : Prop where
  proceeds : Proceeds Traffic.Event.Own i w result.1
  vouched : (result.1.node i).table.Vouched V
  faithful : result.2.rest.Faithful V (result.1.node i).transactions

theorem Left.after {result : World × Progress Unit} (h : Left V i w' result)
    (before : Proceeds Traffic.Event.Own i w w') : Left V i w result :=
  ⟨before.trans h.proceeds, h.vouched, h.faithful⟩

/-- **A task goes on** until it is over or has to wait. -/
theorem advance_faithful (hi : i < w.nodes.length) (sound : (w.node i).transactions.Sound)
    (vouched : (w.node i).table.Vouched V) (waker : Waker) {x : Activity Unit}
    (keeps : x.Keeps Anything V (w.node i) w.now) : Left V i w (w.advance i waker x) := by
  induction x generalizing w with
  | done a =>
      exact ⟨.of_sameNodes (.refl w), vouched, .fresh (Activity.stores_any a V)⟩
  | look k ih => exact ih _ _ hi sound vouched keeps
  | put node next ih =>
      obtain ⟨kept, vouched', keeps⟩ := keeps
      have put := proceeds_setNode hi kept
      have hnode := node_setNode hi node
      refine .after (ih (put.lt hi) (put.sound sound) ?_ ?_) put
      · rw [hnode]
        exact vouched'
      · rw [hnode]
        exact keeps
  | sample region k ih =>
      have sampled := ih (region.sample w.entropy.keys).1
        (w := { w with entropy := { w.entropy with keys := (region.sample w.entropy.keys).2 } })
        hi sound vouched (keeps _)
      exact sampled.after (.of_sameNodes ⟨rfl, rfl, rfl, rfl⟩)
  | report infoHash peers next ih =>
      rw [advance]
      cases (w.node i).listener with
      | none => exact ih hi sound vouched keeps
      | some listener =>
          let told : World :=
            { w with heard := w.heard ++ [⟨listener, w.now, infoHash, peers⟩] }
          have reported := ih (w := told) hi sound vouched keeps
          exact reported.after (.of_sameNodes ⟨rfl, rfl, rfl, rfl⟩)
  | ask queries k ih =>
      have begun := proceeds_beginQueries hi waker queries
      have faithful := beginQueries_faithful V hi sound waker queries
      have vouched' : ((w.beginQueries i waker queries).1.node i).table.Vouched V := by
        rw [begun.table_eq]
        exact vouched
      rw [advance]
      dsimp only
      split
      · next replies hreplies =>
          have honest := honest_replies faithful hreplies
          have keeps' := keeps V subset_rfl _ (w.beginQueries i waker queries).1.now vouched'
            replies honest
          exact (ih replies (begun.lt hi) (begun.sound sound) vouched' keeps').after begun.own
      · refine ⟨begun.own, vouched', .waiting faithful ?_⟩
        exact fun V' hV _ _ _ V'' hV' => keeps V'' (hV.trans hV')

/-- **A job has its turn.** -/
theorem turnJob_faithful (hi : i < w.nodes.length) (sound : (w.node i).transactions.Sound)
    (vouched : (w.node i).table.Vouched V) (waker : Waker) {job : JobState Unit}
    (h : job.Faithful V (w.node i).transactions) : Left V i w (w.turnJob i waker job) := by
  cases h with
  | fresh stores =>
      exact advance_faithful hi sound vouched waker (stores V subset_rfl _ _ vouched)
  | @waiting queries slots resume faithful stores =>
      have turned := proceeds_turnSlots hi slots
      have faithful' := turnSlots_faithful hi sound faithful
      have vouched' : ((w.turnSlots i slots).1.node i).table.Vouched V := by
        rw [turned.table_eq]
        exact vouched
      rw [turnJob]
      dsimp only
      split
      · next replies hreplies =>
          have honest := honest_replies faithful' hreplies
          have keeps := stores V subset_rfl _ 0 vouched V subset_rfl _
            (w.turnSlots i slots).1.now vouched' replies honest
          exact (advance_faithful (turned.lt hi) (turned.sound sound) vouched' waker keeps).after
            turned.own
      · exact ⟨turned.own, vouched', .waiting faithful' stores⟩

end World

/-! ### Sites -/

/-- A site is **faithful**: the node is there, its books are sound, the contacts in its routing
table have been vouched for, and so will be whatever its tasks store. -/
structure Site.Faithful (V : Set Contact) (s : Site) : Prop where
  index_lt : s.index < s.world.nodes.length
  sound : s.node.transactions.Sound
  vouched : s.node.table.Vouched V
  jobs : ∀ job ∈ s.jobs, job.Faithful V s.node.transactions

/-- The contacts that a happening **brings up**: a datagram vouches for them, or they are named to
the node for it to store. -/
def Happening.bringsUp (s : Site) : Happening → Set Contact
  | receive source data => { contact | Traffic.Vouches s.traffic source data contact }
  | begin work => work.named
  | _ => ∅

namespace Site.Faithful

variable {s : Site}

theorem mono (h : s.Faithful V) (hV : V ⊆ V') : s.Faithful V' :=
  ⟨h.index_lt, h.sound, h.vouched.mono hV,
    fun job hjob => (h.jobs job hjob).imp hV fun _ _ awaits => awaits.mono hV⟩

/-- The node does something of its own on behalf of some task. -/
theorem proceed (h : s.Faithful V) {w : World} {jobs : List (JobState Unit)}
    (proceeds : World.Proceeds Traffic.Event.Own s.index s.world w)
    (vouched : (w.node s.index).table.Vouched V)
    (hjobs : ∀ job ∈ jobs, job ∈ s.jobs ∨ job.Faithful V (w.node s.index).transactions) :
    Site.Faithful V { s with world := w, jobs } := by
  refine ⟨proceeds.lt h.index_lt, proceeds.sound h.sound, vouched, fun job hjob => ?_⟩
  obtain before | faithful := hjobs job hjob
  · exact (h.jobs job before).imp subset_rfl fun _ _ => proceeds.awaits h.sound
  · exact faithful

/-- What has been taken from the network is brought to the node. -/
theorem run_receive (h : s.Faithful V) (source : Address) (data : Bytes) (hV : V ⊆ V')
    (heard : (Happening.receive source data).bringsUp s ⊆ V') :
    ((Happening.receive source data).run s).Faithful V' := by
  have follows := World.traffic_takeDatagram h.index_lt ⟨source, s.node.address, data⟩
  have hnode : ((Happening.receive source data).run s).node =
      (s.node.receive s.world.now source data).1 :=
    congrArg (·.node) (follows.traffic_eq.trans (Traffic.runAll_receive ..))
  have hbooks : ((Happening.receive source data).run s).node.transactions =
      (Traffic.runAll s.traffic (Traffic.receive source data)).books :=
    congrArg (·.books) follows.traffic_eq
  refine ⟨?_, ?_, ?_, fun job hjob => ?_⟩
  · exact follows.length_eq.symm ▸ h.index_lt
  · rw [hbooks]
    exact Traffic.sound_runAll_of_sound h.sound _
  · rw [hnode]
    obtain hsame | ⟨contact, vouches, hoffered⟩ := Traffic.table_receive_vouched s.traffic source data
    · exact hsame ▸ h.vouched.mono hV
    · exact hoffered ▸ (h.vouched.mono hV).observe s.world.now (heard vouches)
  · rw [hbooks]
    refine (h.jobs job hjob).imp hV fun number address awaits => ?_
    exact awaits.receive (s := s.traffic) h.sound source data hV heard

/-- **Every happening keeps a site faithful** to what has been brought up. -/
theorem run (h : s.Faithful V) (e : Happening) (hV : V ⊆ V') (brought : e.bringsUp s ⊆ V') :
    (e.run s).Faithful V' := by
  cases e with
  | receive source data => exact h.run_receive source data hV brought
  | begin work =>
      have h' := h.mono hV
      refine ⟨h'.index_lt, h'.sound, h'.vouched, fun job hjob => ?_⟩
      obtain hjob | hjob := List.mem_append.mp hjob
      · exact h'.jobs job hjob
      · rw [List.mem_singleton.mp hjob]
        exact .fresh (Work.stores brought)
  | turn task waker =>
      refine .mono ?_ hV
      rw [Happening.run]
      split
      · exact h
      · next job hjob =>
          have turned := World.turnJob_faithful h.index_lt h.sound h.vouched waker
            (h.jobs job (List.mem_of_getElem? hjob))
          refine h.proceed turned.proceeds turned.vouched fun job' hjob' => ?_
          obtain before | rfl := List.mem_or_eq_of_mem_set hjob'
          · exact .inl before
          · exact .inr turned.faithful
  | abandon task =>
      refine .mono ?_ hV
      rw [Happening.run]
      split
      · exact h
      · next job hjob =>
          have dropped := World.proceeds_abandonAll h.index_lt (World.openSlots job)
          refine h.proceed dropped.own ?_ fun job' hjob' => .inl (List.mem_of_mem_eraseIdx hjob')
          rw [dropped.table_eq]
          exact h.vouched
  | close =>
      have closed := World.proceeds_close h.index_lt
      refine .mono (h.proceed closed.own ?_ fun job hjob => .inl hjob) hV
      rw [closed.table_eq]
      exact h.vouched
  | aside change =>
      refine .mono (h.proceed (World.proceeds_setNode h.index_lt rfl) ?_ fun job hjob => .inl hjob) hV
      rw [World.node_setNode h.index_lt]
      exact h.vouched
  | elsewhere change =>
      obtain ⟨hi, htraffic, hjobs⟩ := Happening.run_elsewhere h.index_lt change
      have hnode : ((Happening.elsewhere change).run s).node = s.node := congrArg (·.node) htraffic
      refine .mono ⟨hi, ?_, ?_, ?_⟩ hV
      · exact hnode ▸ h.sound
      · exact hnode ▸ h.vouched
      · rw [hjobs, hnode]
        exact h.jobs
  | wait duration => exact .mono ⟨h.index_lt, h.sound, h.vouched, h.jobs⟩ hV

/-- **Whatever happens at a site is a course of its traffic**, too. -/
theorem exists_traffic_run (h : s.Faithful V) (e : Happening) :
    ∃ course, (e.run s).traffic = Traffic.runAll s.traffic course := by
  cases e with
  | begin work => exact ⟨[], rfl⟩
  | turn task waker =>
      rw [Happening.run]
      split
      · exact ⟨[], rfl⟩
      · next job hjob =>
          have turned := World.turnJob_faithful h.index_lt h.sound h.vouched waker
            (h.jobs job (List.mem_of_getElem? hjob))
          obtain ⟨course, -, follows⟩ := turned.proceeds
          exact ⟨course, follows.traffic_eq⟩
  | abandon task =>
      rw [Happening.run]
      split
      · exact ⟨[], rfl⟩
      · next job _ =>
          obtain ⟨course, -, follows⟩ := World.proceeds_abandonAll h.index_lt (World.openSlots job)
          exact ⟨course, follows.traffic_eq⟩
  | receive source data =>
      have follows := World.traffic_takeDatagram h.index_lt ⟨source, s.node.address, data⟩
      exact ⟨_, follows.traffic_eq⟩
  | close => exact ⟨_, (World.traffic_close h.index_lt).traffic_eq⟩
  | aside change =>
      let node := { change s.node with table := s.node.table, transactions := s.node.transactions }
      have changed : World.Proceeds Traffic.Event.Own s.index s.world
          (s.world.setNode s.index node) := World.proceeds_setNode h.index_lt rfl
      obtain ⟨course, -, follows⟩ := changed
      exact ⟨course, follows.traffic_eq⟩
  | elsewhere change => exact ⟨[], (Happening.run_elsewhere h.index_lt change).2.1⟩
  | wait duration => exact ⟨[.wait duration], rfl⟩

end Site.Faithful

/-- What has been brought up in a course of happenings. -/
def Site.broughtUp (s : Site) (course : List Happening) : Set Contact :=
  { contact | ∃ before e, before ++ [e] <+: course ∧ contact ∈ e.bringsUp (Happening.runAll s before) }

theorem Site.broughtUp_mono (s : Site) {course course' : List Happening} (h : course <+: course') :
    s.broughtUp course ⊆ s.broughtUp course' :=
  fun _ ⟨before, e, hinit, hc⟩ => ⟨before, e, hinit.trans h, hc⟩

/-- **In every course of happenings a site stays faithful** to what has been brought up. -/
theorem Site.Faithful.runAll {s : Site} (h : s.Faithful V) (course : List Happening) :
    (Happening.runAll s course).Faithful (V ∪ s.broughtUp course) := by
  induction course using List.reverseRecOn with
  | nil => exact h.mono Set.subset_union_left
  | append_singleton course e ih =>
      rw [Happening.runAll_concat]
      refine ih.run e ?_ fun contact hc => .inr ⟨course, e, List.prefix_rfl, hc⟩
      exact Set.union_subset_union_right V (s.broughtUp_mono (List.prefix_append course [e]))

/-- **In every course of happenings the traffic of a site takes a course.** -/
theorem Site.Faithful.exists_traffic {s : Site} (h : s.Faithful V) (course : List Happening) :
    ∃ events, (Happening.runAll s course).traffic = Traffic.runAll s.traffic events := by
  induction course using List.reverseRecOn with
  | nil => exact ⟨[], rfl⟩
  | append_singleton course e ih =>
      obtain ⟨events, htraffic⟩ := ih
      obtain ⟨events', htraffic'⟩ := (h.runAll course).exists_traffic_run e
      refine ⟨events ++ events', ?_⟩
      rw [Happening.runAll_concat, htraffic', htraffic, Traffic.runAll_append]

/-- Whoever has been brought up has been vouched for by a datagram, or the node has been told to
store the contact. -/
theorem Site.vouched_or_named {s : Site} {course : List Happening} {contact : Contact}
    (h : contact ∈ s.broughtUp course) :
    (∃ before data, before ++ [.receive contact.address data] <+: course ∧
        Traffic.Vouches (Happening.runAll s before).traffic contact.address data contact) ∨
      ∃ work, .begin work ∈ course ∧ contact ∈ work.named := by
  obtain ⟨before, e, hinit, brought⟩ := h
  cases e with
  | receive source data =>
      obtain rfl := brought.address_eq
      exact .inl ⟨before, data, hinit, brought⟩
  | begin work =>
      have hmem := List.mem_append_right before (List.mem_singleton_self (Happening.begin work))
      exact .inr ⟨work, hinit.subset hmem, brought⟩
  | turn | abandon | close | aside | elsewhere | wait => exact brought.elim

theorem World.nodes_addNode (w : World) (localId : Key) (address : Address) (settings : Settings) :
    (w.addNode localId address settings).nodes =
      w.nodes ++ [(Node.create localId address settings w.now w.entropy.secrets).1] :=
  rfl

/-- A node that has just been added to a world is as it has been created. -/
theorem Site.node_start (w : World) (localId : Key) (address : Address) (settings : Settings) :
    (Site.start w localId address settings).node =
      (Node.create localId address settings w.now w.entropy.secrets).1 := by
  rw [Site.node, World.node, Site.start, World.nodes_addNode, List.getD_eq_getElem?_getD,
    List.getElem?_concat_length, Option.getD_some]

/-- A node that has just been added to a world knows nobody. -/
theorem Site.faithful_start (w : World) (localId : Key) (address : Address) (settings : Settings)
    (V : Set Contact) : (Site.start w localId address settings).Faithful V := by
  have hnode := Site.node_start w localId address settings
  refine ⟨?_, ?_, ?_, List.forall_mem_nil _⟩
  · rw [Site.start, World.nodes_addNode, List.length_append]
    exact Nat.lt_succ_self _
  · rw [hnode]
    exact Transactions.sound_create settings
  · rw [hnode]
    exact Routing.Table.Vouched.empty V localId settings.bucketCapacity w.now

/-- Whoever is in the routing table of a node that began with nobody in it has been vouched for by a
datagram, or the node has been told to store the contact. -/
theorem Site.vouched_or_named_of_start {w : World} {localId : Key} {address : Address}
    {settings : Settings} {course : List Happening} {m : Member}
    (hm : m ∈ (Happening.runAll (Site.start w localId address settings) course).node.table.members) :
    (∃ before data, before ++ [.receive m.contact.address data] <+: course ∧
        Traffic.Vouches (Happening.runAll (Site.start w localId address settings) before).traffic
          m.contact.address data m.contact) ∨
      ∃ work, .begin work ∈ course ∧ m.contact ∈ work.named := by
  have faithful := (Site.faithful_start w localId address settings ∅).runAll course
  obtain none | brought := faithful.vouched.contact_mem m hm
  · exact none.elim
  · exact Site.vouched_or_named brought

/-- **Whoever is in the routing table has been heard from.** A node is added to a world and does
whatever it can be given to do, short of storing a contact that it is told to store, while anything
may happen around it. Every contact in its routing table has been vouched for by a datagram that
the node has received from exactly the contact's address. -/
theorem members_vouched_for (w : World) (localId : Key) (address : Address) (settings : Settings)
    (course : List Happening) (namesNobody : ∀ work, .begin work ∈ course → work.named = ∅) :
    let start := Site.start w localId address settings
    ∀ m ∈ (Happening.runAll start course).node.table.members,
      ∃ before data, before ++ [.receive m.contact.address data] <+: course ∧
        Traffic.Vouches (Happening.runAll start before).traffic m.contact.address data m.contact := by
  intro start m hm
  obtain vouched | ⟨work, hwork, named⟩ := Site.vouched_or_named_of_start hm
  · exact vouched
  · rw [namesNobody work hwork] at named
    exact named.elim

/-- A node looks for others through a contact that it is told of. The contact answers and tells of
another one, which is asked, too. In the routing table is the contact that has answered, and what
vouches for it is its answer. -/
theorem answering_contact_vouched_for :
    let asked : Contact := ⟨⟨1⟩, .v4 ⟨10, 0, 0, 2⟩ 6881⟩
    let told : Contact := ⟨⟨2⟩, .v4 ⟨10, 0, 0, 3⟩ 6881⟩
    let answer := (Krpc.Message.mk [0, 1] (.response (.findNode asked.id [told]))).encode
    let start := Site.start (.empty { transactions := ⟨[0, 1], 1⟩ }) ⟨0⟩ (.v4 ⟨10, 0, 0, 1⟩ 6881) {}
    let course : List Happening := [.begin (.request (.lookupNodes told.id (.given [asked]))),
      .turn 0 ⟨0, 0⟩, .receive asked.address answer, .turn 0 ⟨0, 0⟩]
    (∀ work, .begin work ∈ course → work.named = ∅) ∧
      (Happening.runAll start course).node.table.members = [.active asked 0] ∧
      ∃ before data, before ++ [.receive asked.address data] <+: course ∧
        Traffic.Vouches (Happening.runAll start before).traffic asked.address data asked := by
  intro asked told answer start course
  have namesNobody : ∀ work, .begin work ∈ course → work.named = ∅ := by
    intro work hwork
    simp only [course, List.mem_cons, reduceCtorEq, or_false, Happening.begin.injEq,
      List.not_mem_nil] at hwork
    rw [hwork]
    rfl
  have held : (Happening.runAll start course).node.table.members = [.active asked 0] := by
    decide +kernel
  have vouched := members_vouched_for (.empty { transactions := ⟨[0, 1], 1⟩ }) ⟨0⟩
    (.v4 ⟨10, 0, 0, 1⟩ 6881) {} course namesNobody (.active asked 0) (held ▸ List.mem_cons_self)
  exact ⟨namesNobody, held, vouched⟩

end Mainline.Simulation
