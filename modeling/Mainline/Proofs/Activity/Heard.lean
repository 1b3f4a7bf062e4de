import Mainline.Proofs.Activity.Provenance
import Mainline.Proofs.Routing.Eviction

/-!
# Good means heard from

A member of the routing table is good if it was active in the last fifteen minutes, and activity
should mean that the node has heard from it: a query that the member has sent, or a response. The
table cannot know. It takes the instant of an offer for the instant of the activity, whoever makes
the offer.

When a datagram offers the sender of a query, the two are the same. A task that makes an offer has
got the response earlier, in the same round or several rounds ago, and a node that joins through a
contact offers the contact even if it has never answered. This module proves that nothing else can
go wrong: good means heard from, exactly as long as the contact that a node joins through has
answered before it is stored, and offers are made at the instants of the responses.

## Main results

* `Routing.Table.goodIsHeard_iff`: what a table must be like for good to mean heard from, whatever
  time passes.
* `Happening.source_of_mem_run`: apart from the turns of tasks, only datagrams change records.
* `Site.creditsTurn_iff`: what the turns of tasks must be like.
* `good_is_heard_iff`: when good means heard from.
* `good_though_never_heard`: a node joins through a contact that never answers.
-/

namespace Mainline

open Routing (Step Situation)

variable {heard : Contact → Instant → Prop}

/-- A member that is good at an instant is good until fifteen minutes after its activity. -/
theorem Member.good_iff_lt (m : Member) (now : Instant) :
    m.standing now = .good ↔
      m.failures = 0 ∧ ∃ last, m.lastActive = some last ∧ now < last + goodFor := by
  rw [standing_eq_good_iff]
  refine and_congr_right fun _ => exists_congr fun last => and_congr_right fun _ => ?_
  rw [elapsed, Int.toNat_lt' (by decide)]
  exact ⟨Int.lt_add_of_sub_left_lt, Int.sub_left_lt_of_lt_add⟩

namespace Routing.Table

/-- **Good means heard from**: every member that is good now has been heard from in the last fifteen
minutes. -/
def GoodIsHeard (t : Table) (heard : Contact → Instant → Prop) (now : Instant) : Prop :=
  ∀ m ∈ t.members, m.standing now = .good →
    ∃ time, heard m.contact time ∧ time ≤ now ∧ now < time + goodFor

/-- The activity of a member is **credited**: it has been heard from at the instant of its activity
or later. -/
def Credited (heard : Contact → Instant → Prop) (m : Member) : Prop :=
  ∀ last, m.lastActive = some last → ∃ time, heard m.contact time ∧ last ≤ time

variable {t : Table} {now : Instant}

/-- Good means heard from, **whatever time passes**, if and only if the activity of every good
member is credited. -/
theorem goodIsHeard_iff (past : ∀ contact time, heard contact time → time ≤ now) :
    (∀ duration : Duration, t.GoodIsHeard heard (now + duration)) ↔
      ∀ m ∈ t.members, m.standing now = .good → Credited heard m := by
  constructor
  · intro law m hm good last hlast
    obtain ⟨hzero, last', hlast', hfresh⟩ := (m.good_iff_lt now).mp good
    obtain rfl := Option.some.inj (hlast.symm.trans hlast')
    -- The law is put to the test at the last instant at which the member is good.
    obtain ⟨duration, hlatest⟩ := Int.le.dest (Int.le_sub_one_of_lt hfresh)
    have good' : m.standing (now + duration) = .good :=
      (m.good_iff_lt _).mpr ⟨hzero, last, hlast, hlatest ▸ Int.sub_one_lt_iff.mpr (Int.le_refl _)⟩
    obtain ⟨time, hheard, -, hlt⟩ := law duration m hm good'
    rw [hlatest, Int.sub_one_lt_iff] at hlt
    exact ⟨time, hheard, Int.le_of_add_le_add_right hlt⟩
  · intro credited duration m hm good
    have hlater : now ≤ now + duration := Int.le_add_of_nonneg_right (Int.natCast_nonneg duration)
    have credited := credited m hm (Member.good_of_good_later hlater good)
    obtain ⟨-, last, hlast, hlt⟩ := (m.good_iff_lt _).mp good
    obtain ⟨time, hheard, hle⟩ := credited last hlast
    refine ⟨time, hheard, (past m.contact time hheard).trans hlater, hlt.trans_le ?_⟩
    exact Int.add_le_add_right hle goodFor

end Routing.Table

namespace Simulation

variable {V : Set Contact} {s : Site}

/-! ### What happenings do to records and to the clock -/

/-- The clock does not go back. -/
theorem Happening.now_le_run (h : s.Faithful V) (e : Happening) :
    s.world.now ≤ (e.run s).world.now := by
  cases e with
  | begin work => exact Int.le_refl _
  | turn task waker =>
      rw [run]
      split
      · exact Int.le_refl _
      · next job hjob =>
          have turned := World.turnJob_faithful h.index_lt h.sound h.vouched waker
            (h.jobs job (List.mem_of_getElem? hjob))
          exact Int.le_of_eq turned.proceeds.now_eq.symm
  | abandon task =>
      rw [run]
      split
      · exact Int.le_refl _
      · exact Int.le_of_eq (World.proceeds_abandonAll h.index_lt _).own.now_eq.symm
  | receive source data =>
      have follows := World.traffic_takeDatagram h.index_lt ⟨source, s.node.address, data⟩
      have happens := follows.traffic_eq.trans (Traffic.runAll_receive ..)
      exact Int.le_of_eq (congrArg (·.now) happens).symm
  | close =>
      have follows := World.traffic_close h.index_lt
      exact Int.le_of_eq (congrArg (·.now) follows.traffic_eq).symm
  | aside change => exact Int.le_refl _
  | elsewhere change =>
      obtain ⟨-, htraffic, -⟩ := run_elsewhere h.index_lt change
      exact Int.le_of_eq (congrArg (·.now) htraffic).symm
  | wait duration => exact Int.le_add_of_nonneg_right (Int.natCast_nonneg duration)

/-- A datagram leaves records as they are, or records its sender as active now. -/
theorem Happening.source_receive (h : s.Faithful V) {source : Address} {data : Bytes} {m : Member}
    (hm : m ∈ ((receive source data).run s).node.table.members) :
    m ∈ s.node.table.members ∨ m.contact.address = source ∧
      Traffic.Vouches s.traffic source data m.contact ∧ m.lastActive = some s.world.now := by
  have follows := World.traffic_takeDatagram h.index_lt ⟨source, s.node.address, data⟩
  have htable : ((receive source data).run s).node.table =
      (s.traffic.node.receive s.traffic.now source data).1.table :=
    congrArg (·.node.table) (follows.traffic_eq.trans (Traffic.runAll_receive ..))
  rw [htable] at hm
  obtain hsame | ⟨contact, vouches, hoffered⟩ := Traffic.table_receive_vouched s.traffic source data
  · exact .inl (hsame ▸ hm)
  · rw [hoffered] at hm
    have observed : m ∈ ((Step.observe (.active contact s.world.now)).run
      ⟨s.node.table, s.world.now⟩).table.members := hm
    cases Step.source_of_mem_run h.vouched.wellFormed observed with
    | kept held => exact .inl held
    | entered offers absent =>
        cases offers
        exact .inr ⟨vouches.address_eq, vouches, rfl⟩
    | renewed offers held known =>
        cases offers
        exact .inr ⟨vouches.address_eq, vouches, rfl⟩
    | touched sees held => cases sees
    | failed fails held => cases fails

/-- **Apart from the turns of tasks, only datagrams change records**, and they record what happens
at the moment. -/
theorem Happening.source_of_mem_run (h : s.Faithful V) {e : Happening}
    (noTurn : ∀ task waker, e ≠ .turn task waker) {m : Member}
    (hm : m ∈ (e.run s).node.table.members) :
    m ∈ s.node.table.members ∨ ∃ data, e = .receive m.contact.address data ∧
      Traffic.Vouches s.traffic m.contact.address data m.contact ∧
        m.lastActive = some s.world.now := by
  cases e with
  | turn task waker => exact absurd rfl (noTurn task waker)
  | receive source data =>
      obtain held | ⟨rfl, vouches, hlast⟩ := source_receive h hm
      · exact .inl held
      · exact .inr ⟨data, rfl, vouches, hlast⟩
  | begin work => exact .inl hm
  | abandon task =>
      refine .inl ?_
      rw [run] at hm
      split at hm
      · exact hm
      · exact (World.proceeds_abandonAll h.index_lt _).table_eq ▸ hm
  | close =>
      exact .inl ((World.proceeds_close h.index_lt).table_eq ▸ hm)
  | aside change =>
      refine .inl ?_
      rw [run, Site.node, World.node_setNode h.index_lt] at hm
      exact hm
  | elsewhere change =>
      obtain ⟨-, htraffic, -⟩ := run_elsewhere h.index_lt change
      have hnode : ((elsewhere change).run s).node = s.node := congrArg (·.node) htraffic
      exact .inl (hnode ▸ hm)
  | wait duration => exact .inl hm

/-! ### Who has been heard from -/

/-- When a contact has been **heard from**: some time before a course, or in the course by a
datagram that vouches for it. -/
def Site.Heard (s : Site) (earlier : Contact → Instant → Prop) (course : List Happening)
    (contact : Contact) (time : Instant) : Prop :=
  earlier contact time ∨ ∃ before data, before ++ [.receive contact.address data] <+: course ∧
    Traffic.Vouches (Happening.runAll s before).traffic contact.address data contact ∧
      (Happening.runAll s before).world.now = time

variable {start : Site} {earlier : Contact → Instant → Prop}

theorem Site.Heard.mono {course course' : List Happening} (h : course <+: course')
    {contact : Contact} {time : Instant} (heard : start.Heard earlier course contact time) :
    start.Heard earlier course' contact time :=
  heard.imp_right fun ⟨before, data, hinit, vouches⟩ => ⟨before, data, hinit.trans h, vouches⟩

/-- Only datagrams are heard. -/
theorem Site.heard_concat_turn {course : List Happening} {task : ℕ} {waker : Waker}
    {contact : Contact} {time : Instant}
    (heard : start.Heard earlier (course ++ [.turn task waker]) contact time) :
    start.Heard earlier course contact time := by
  refine heard.imp_right fun ⟨before, data, hinit, vouches⟩ => ⟨before, data, ?_, vouches⟩
  obtain hwhole | hinit := List.prefix_concat_iff.mp hinit
  · obtain ⟨-, heq⟩ := List.append_inj' hwhole rfl
    cases List.singleton_inj.mp heq
  · exact hinit

/-- The clock does not go back in a course. -/
theorem Happening.now_le_runAll (h : start.Faithful V) {before course : List Happening}
    (hinit : before <+: course) :
    (runAll start before).world.now ≤ (runAll start course).world.now := by
  obtain ⟨rest, rfl⟩ := hinit
  induction rest using List.reverseRecOn with
  | nil => rw [List.append_nil]
  | append_singleton rest e ih =>
      rw [← List.append_assoc, runAll_concat]
      exact Int.le_trans ih (now_le_run (h.runAll (before ++ rest)) e)

/-- Whoever has been heard from has been heard from in the past. -/
theorem Site.Heard.le_now (h : start.Faithful V)
    (past : ∀ contact time, earlier contact time → time ≤ start.world.now) {course : List Happening}
    {contact : Contact} {time : Instant} (heard : start.Heard earlier course contact time) :
    time ≤ (Happening.runAll start course).world.now := by
  obtain heard | ⟨before, data, hinit, -, rfl⟩ := heard
  · exact Int.le_trans (past contact time heard)
      (Happening.now_le_runAll h (List.nil_prefix (l := course)))
  · exact Happening.now_le_runAll h ((List.prefix_append before _).trans hinit)

/-! ### When good means heard from -/

/-- **Good means heard from** in a state that a course leads to, now and for as long as nothing
happens. -/
def Site.GoodIsHeard (s : Site) (earlier : Contact → Instant → Prop) (course : List Happening) :
    Prop :=
  ∀ duration : Duration, (Happening.runAll s course).node.table.GoodIsHeard
    (s.Heard earlier course) ((Happening.runAll s course).world.now + duration)

theorem Site.goodIsHeard_iff (h : start.Faithful V)
    (past : ∀ contact time, earlier contact time → time ≤ start.world.now)
    (course : List Happening) :
    start.GoodIsHeard earlier course ↔
      ∀ m ∈ (Happening.runAll start course).node.table.members,
        m.standing (Happening.runAll start course).world.now = .good →
          Routing.Table.Credited (start.Heard earlier course) m :=
  Routing.Table.goodIsHeard_iff fun _ _ heard => heard.le_now h past

/-! ### What the turns of tasks record -/

/-- The turn of a task that follows a course **records** a member as good: the record is new, and
the member is good with it. -/
structure Site.Records (s : Site) (course : List Happening) (turn : Happening) (m : Member) :
    Prop where
  stored : m ∈ (Happening.runAll s (course ++ [turn])).node.table.members
  new : m ∉ (Happening.runAll s course).node.table.members
  good : m.standing (Happening.runAll s (course ++ [turn])).world.now = .good

/-- The node has been **told of** a contact: it knew the contact at the beginning, or has been given
it to store or to join through. -/
def Site.ToldOf (s : Site) (course : List Happening) (contact : Contact) : Prop :=
  contact ∈ s.node.table.members.map Member.contact ∨
    ∃ work, .begin work ∈ course ∧ contact ∈ work.named

/-- A turn **credits** contacts with what has been heard from them. -/
structure Site.CreditsTurn (s : Site) (earlier : Contact → Instant → Prop)
    (course : List Happening) (turn : Happening) : Prop where
  /-- A contact that the node has been told of, such as the one that it joins through, has been
  heard from before it is recorded as good. -/
  answered : ∀ m, s.Records course turn m → s.ToldOf course m.contact →
    ∃ time, s.Heard earlier course m.contact time
  /-- Offers are made at the instants of the responses: a contact that has been heard from is
  recorded as active no later than the last of it has been heard. -/
  prompt : ∀ m last, s.Records course turn m → m.lastActive = some last →
    (∃ time, s.Heard earlier course m.contact time) →
      ∃ time, s.Heard earlier course m.contact time ∧ last ≤ time

/-- Whoever is a member has been heard from, or the node has been told of the contact. -/
theorem Site.heard_or_toldOf (earlier : Contact → Instant → Prop)
    (h : start.Faithful { contact | contact ∈ start.node.table.members.map Member.contact })
    {course : List Happening} {m : Member}
    (hm : m ∈ (Happening.runAll start course).node.table.members) :
    (∃ time, start.Heard earlier course m.contact time) ∨ start.ToldOf course m.contact := by
  obtain known | brought := (h.runAll course).vouched.contact_mem m hm
  · exact .inr (.inl known)
  · obtain ⟨before, data, hinit, vouches⟩ | named := Site.vouched_or_named brought
    · exact .inl ⟨_, .inr ⟨before, data, hinit, vouches, rfl⟩⟩
    · exact .inr (.inr named)

/-- A turn tells the node of nobody. -/
theorem Site.toldOf_concat_turn {course : List Happening} {task : ℕ} {waker : Waker}
    {contact : Contact} (told : start.ToldOf (course ++ [.turn task waker]) contact) :
    start.ToldOf course contact := by
  refine told.imp_right fun ⟨work, hbegin, named⟩ => ⟨work, ?_, named⟩
  obtain before | heq := List.mem_append.mp hbegin
  · exact before
  · cases List.mem_singleton.mp heq

/-- A turn credits contacts with what has been heard from them if and only if **all records of good
members that it makes are credited**. -/
theorem Site.creditsTurn_iff
    (h : start.Faithful { contact | contact ∈ start.node.table.members.map Member.contact })
    {course : List Happening} {task : ℕ} {waker : Waker} :
    start.CreditsTurn earlier course (.turn task waker) ↔
      ∀ m, start.Records course (.turn task waker) m →
        Routing.Table.Credited (start.Heard earlier course) m := by
  constructor
  · intro credits m records last hlast
    obtain ⟨time, heard⟩ | told := Site.heard_or_toldOf earlier h records.stored
    · exact credits.prompt m last records hlast ⟨time, Site.heard_concat_turn heard⟩
    · have answered := credits.answered m records (Site.toldOf_concat_turn told)
      exact credits.prompt m last records hlast answered
  · intro credited
    refine ⟨fun m records _ => ?_, fun m last records hlast _ => credited m records last hlast⟩
    -- who is good has been active, so there is something to be credited
    obtain ⟨-, last, hlast, -⟩ := (m.good_iff_lt _).mp records.good
    obtain ⟨time, heard, -⟩ := credited m records last hlast
    exact ⟨time, heard⟩

/-- Good goes on to mean heard from, unless the turn of a task is to blame. -/
theorem Site.goodIsHeard_concat (h : start.Faithful V)
    (past : ∀ contact time, earlier contact time → time ≤ start.world.now)
    {course : List Happening} (law : start.GoodIsHeard earlier course) {e : Happening}
    (credited : ∀ task waker, e = .turn task waker → ∀ m, start.Records course e m →
      Routing.Table.Credited (start.Heard earlier course) m) :
    start.GoodIsHeard earlier (course ++ [e]) := by
  rw [Site.goodIsHeard_iff h past] at law ⊢
  intro m hm good last hlast
  have hlater := List.prefix_append course [e]
  have keep : m ∈ (Happening.runAll start course).node.table.members →
      ∃ time, start.Heard earlier (course ++ [e]) m.contact time ∧ last ≤ time := by
    intro held
    have good' := Member.good_of_good_later (Happening.now_le_runAll h hlater) good
    obtain ⟨time, heard, hle⟩ := law m held good' last hlast
    exact ⟨time, heard.mono hlater, hle⟩
  by_cases turns : ∃ task waker, e = .turn task waker
  · obtain ⟨task, waker, heq⟩ := turns
    by_cases held : m ∈ (Happening.runAll start course).node.table.members
    · exact keep held
    · obtain ⟨time, heard, hle⟩ := credited task waker heq m ⟨hm, held, good⟩ last hlast
      exact ⟨time, heard.mono hlater, hle⟩
  · have noTurn : ∀ task waker, e ≠ .turn task waker :=
      fun task waker heq => turns ⟨task, waker, heq⟩
    rw [Happening.runAll_concat] at hm
    obtain held | ⟨data, rfl, vouches, hnow⟩ :=
      Happening.source_of_mem_run (h.runAll course) noTurn hm
    · exact keep held
    · obtain rfl := Option.some.inj (hnow.symm.trans hlast)
      exact ⟨_, .inr ⟨course, data, List.prefix_rfl, vouches, rfl⟩, Int.le_refl _⟩

/-- **Good means heard from, exactly as long as no task is to blame.** Take a node at which nothing
is under way and in whose routing table good means heard from, and let it do whatever it can be
given to do while anything happens around it.

In all states that are reached, and whatever time passes then, every good member has been heard from
in the last fifteen minutes, if and only if two things hold of every turn of a task. A contact that
the node has been told of, such as the one that it joins through, has been heard from before it is
recorded as good; and a contact that has been heard from is recorded as active no later than that,
as when it is offered at the instant of its response. Queries that arrive, failures and whatever
else happens cannot break the law.

Whom a task can so record is limited, too: every member has been heard from at some time in the
course, or is a contact that the node has been told of. -/
theorem good_is_heard_iff (start : Site) (index_lt : start.index < start.world.nodes.length)
    (sound : start.node.transactions.Sound) (wellFormed : start.node.table.WellFormed)
    (idle : start.jobs = []) (earlier : Contact → Instant → Prop)
    (past : ∀ contact time, earlier contact time → time ≤ start.world.now)
    (holds : start.GoodIsHeard earlier []) (course : List Happening) :
    ((∀ before, before <+: course → start.GoodIsHeard earlier before) ↔
      ∀ before task waker, before ++ [.turn task waker] <+: course →
        start.CreditsTurn earlier before (.turn task waker)) ∧
    ∀ m ∈ (Happening.runAll start course).node.table.members,
      (∃ time, start.Heard earlier course m.contact time) ∨ start.ToldOf course m.contact := by
  have h : start.Faithful { contact | contact ∈ start.node.table.members.map Member.contact } := by
    refine ⟨index_lt, sound, ⟨wellFormed, fun m hm => List.mem_map_of_mem hm⟩, fun job hjob => ?_⟩
    rw [idle] at hjob
    cases hjob
  refine ⟨⟨fun law before task waker hinit => ?_, fun credits before hinit => ?_⟩,
    fun m hm => Site.heard_or_toldOf earlier h hm⟩
  · refine (Site.creditsTurn_iff h).mpr fun m records last hlast => ?_
    have law' := (Site.goodIsHeard_iff h past _).mp (law _ hinit)
    obtain ⟨time, heard, hle⟩ := law' m records.stored records.good last hlast
    exact ⟨time, Site.heard_concat_turn heard, hle⟩
  · induction before using List.reverseRecOn with
    | nil => exact holds
    | append_singleton before e ih =>
        refine Site.goodIsHeard_concat h past (ih ((List.prefix_append before [e]).trans hinit)) ?_
        rintro task waker rfl
        exact (Site.creditsTurn_iff h).mp (credits before task waker hinit)

/-- A node looks for others through a contact, and the contact answers at once: the lookup enters it
as active at the very instant at which its answer has come. -/
theorem good_is_heard_when_answered_at_once :
    let asked : Contact := ⟨⟨1⟩, .v4 ⟨10, 0, 0, 2⟩ 6881⟩
    let answer := (Krpc.Message.mk [0, 1] (.response (.findNode asked.id []))).encode
    let start := Site.start (.empty { transactions := ⟨[0, 1], 1⟩ }) ⟨0⟩ (.v4 ⟨10, 0, 0, 1⟩ 6881) {}
    let course : List Happening := [.begin (.request (.lookupNodes ⟨2⟩ (.given [asked]))),
      .turn 0 ⟨0, 0⟩, .receive asked.address answer, .turn 0 ⟨0, 0⟩]
    start.index < start.world.nodes.length ∧ start.node.transactions.Sound ∧
      start.node.table.WellFormed ∧ start.jobs = [] ∧ start.GoodIsHeard (fun _ _ => False) [] ∧
      (Happening.runAll start course).node.table.members = [.active asked 0] ∧
      ∀ before, before <+: course → start.GoodIsHeard (fun _ _ => False) before := by
  intro asked answer start course
  have h : start.Faithful Set.univ := Site.faithful_start ..
  have holds : start.GoodIsHeard (fun _ _ => False) [] := by
    intro duration m hm
    have hnone : (Happening.runAll start []).node.table.members = [] := by decide +kernel
    rw [hnone] at hm
    cases hm
  have entered : (Happening.runAll start course).node.table.members = [.active asked 0] := by
    decide +kernel
  have law := good_is_heard_iff start h.index_lt h.sound h.vouched.wellFormed rfl (fun _ _ => False)
    nofun holds course
  refine ⟨h.index_lt, h.sound, h.vouched.wellFormed, rfl, holds, entered, law.1.mpr ?_⟩
  intro before task waker hinit
  -- Both conditions follow if whatever is recorded is credited.
  suffices credited : ∀ m, start.Records before (.turn task waker) m →
      ∃ time, start.Heard (fun _ _ => False) before m.contact time ∧
        ∀ last, m.lastActive = some last → last ≤ time by
    refine ⟨fun m records _ => ?_, fun m last records hlast _ => ?_⟩
    · obtain ⟨time, heard, -⟩ := credited m records
      exact ⟨time, heard⟩
    · obtain ⟨time, heard, hle⟩ := credited m records
      exact ⟨time, heard, hle last hlast⟩
  intro m records
  obtain ⟨rest, hcourse⟩ := hinit
  rcases before with _ | ⟨e₁, _ | ⟨e₂, _ | ⟨e₃, _ | ⟨e₄, before⟩⟩⟩⟩
  all_goals simp [course] at hcourse
  · obtain ⟨rfl, ⟨rfl, rfl⟩, -⟩ := hcourse
    have hnone : (Happening.runAll start (course.take 2)).node.table.members = [] := by
      decide +kernel
    have hm : m ∈ (Happening.runAll start (course.take 2)).node.table.members := records.stored
    rw [hnone] at hm
    cases hm
  · obtain ⟨rfl, rfl, rfl, ⟨rfl, rfl⟩, -⟩ := hcourse
    have hm : m ∈ (Happening.runAll start course).node.table.members := records.stored
    rw [entered] at hm
    obtain rfl := List.mem_singleton.mp hm
    have vouches : Traffic.Vouches (Happening.runAll start (course.take 2)).traffic asked.address
        answer asked :=
      ⟨⟨[0, 1], .response (.findNode asked.id [])⟩, by decide +kernel, rfl,
        .inr ⟨.findNode asked.id [], rfl, rfl, by decide +kernel⟩⟩
    refine ⟨0, .inr ⟨course.take 2, answer, List.prefix_rfl, vouches, rfl⟩, fun last hlast => ?_⟩
    obtain rfl := Option.some.inj hlast
    exact Int.le_refl _

/-- **A node joins through a contact that never answers**, and takes it for good. Not a single
datagram has arrived. -/
theorem good_though_never_heard :
    let known : Contact := ⟨⟨1⟩, .v4 ⟨10, 0, 0, 2⟩ 1000⟩
    let stranger : Contact := ⟨⟨BitVec.allOnes 160 - 253⟩, .v4 ⟨10, 0, 0, 3⟩ 1000⟩
    let w := (World.empty {}).addNode ⟨0⟩ (.v4 ⟨10, 0, 0, 1⟩ 1000) {}
    let table := ((w.node 0).table.observe w.now (.hearsay known)).1
    let start : Site := ⟨w.setNode 0 { w.node 0 with table }, 0, []⟩
    let course : List Happening :=
      [.begin (.request (.join stranger)), .turn 0 ⟨0, 0⟩, .wait 10000, .turn 0 ⟨0, 0⟩]
    start.GoodIsHeard (fun _ _ => False) [] ∧
      (∀ source data, .receive source data ∉ course) ∧
      (Happening.runAll start course).node.table.members =
        [.active stranger 10000, .hearsay known] ∧
      ¬ start.GoodIsHeard (fun _ _ => False) course := by
  intro known stranger w table start course
  have hstart : (Happening.runAll start []).node.table.members = [.hearsay known] := by
    decide +kernel
  have entered : (Happening.runAll start course).node.table.members =
      [.active stranger 10000, .hearsay known] := by decide +kernel
  have silent : ∀ source data, .receive source data ∉ course := by
    intro source data hmem
    simp [course] at hmem
  refine ⟨fun duration m hm good => ?_, silent, entered, fun law => ?_⟩
  · rw [hstart, List.mem_singleton] at hm
    subst hm
    exact absurd good (Member.not_good_of_inactive rfl _)
  · have good : (Member.active stranger 10000).standing
        ((Happening.runAll start course).world.now + (0 : Duration)) = .good := by decide +kernel
    obtain ⟨time, none | ⟨before, data, hinit, -⟩, -⟩ := law 0 _ (entered ▸ List.mem_cons_self) good
    · exact none
    · refine silent _ _ (hinit.subset (List.mem_append_right before (List.mem_singleton_self _)))

end Simulation

end Mainline
