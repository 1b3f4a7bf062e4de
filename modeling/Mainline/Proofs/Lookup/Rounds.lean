import Mainline.Lookup
import Mainline.Proofs.Activity.Course
import Mainline.Proofs.Lookup.Search

/-!
# The rounds of a lookup

A lookup looks at the node now and then, to see whether it has been shut down and to enter replies
into the routing table. What it asks and what it comes to depends on the replies alone: `rounds` and
`afterAll` compute both, and every course of a lookup consists of such rounds, whatever happens to
the node meanwhile.

What comes of replies is proved once for a single reply (`absorbed_absorb`) and composed from there
to rounds and whole lookups, in the form of `Absorbed`: which contacts have answered, and that the
search stays in order.

## Main results

* `inRounds_of_course`: every course of a lookup consists of rounds.
* `absorbed_afterRound`, `absorbed_afterAll`: what comes of a round, and of all of them.
* `absorbed_of_course`: what comes of a lookup, in every course of it.
-/

namespace Mainline.Lookup

/-- A round of a lookup: the search at its beginning, and the replies of the contacts it asks. -/
structure Round where
  search : Search
  replies : List Reply

/-- The contacts that a round asks. -/
def Round.asked (r : Round) : List Contact :=
  r.search.nextRound.1

variable {σ : Type} (purpose : Purpose σ)

/-- What a lookup has come to after a round, given the replies. -/
def afterRound (s : Search × σ) (replies : List Reply) : Search × σ :=
  absorbAll purpose (s.1.nextRound.2, s.2) (s.1.nextRound.1.zip replies)

/-- What a lookup has come to after several rounds, given the replies in each of them. -/
def afterAll (s : Search × σ) (answers : List (List Reply)) : Search × σ :=
  answers.foldl (afterRound purpose) s

/-- The rounds of a lookup, given the replies in each of them. -/
def rounds (s : Search × σ) : List (List Reply) → List Round
  | [] => []
  | replies :: answers => ⟨s.1, replies⟩ :: rounds (afterRound purpose s replies) answers

/-- A lookup from the queries of a round on. -/
def fromQueries (n : ℕ) (s : Search × σ) : Activity (Search × σ) :=
  .ask (s.1.nextRound.1.map fun c => (c.address, purpose.query)) fun replies =>
    .look fun node now =>
      .put { node with
          table := recordAll node.table node.localId now (s.1.nextRound.1.zip replies) }
        (if (afterRound purpose s replies).1.isStuck s.1.best? then
          .done (afterRound purpose s replies)
        else run purpose n (afterRound purpose s replies))

/-- A lookup that has rounds left looks whether it is to go on, and then sends queries. -/
theorem run_succ (n : ℕ) (s : Search × σ) :
    run purpose (n + 1) s = .look fun node _ =>
      if node.isClosed || s.1.isExhausted then .done s
      else if s.1.nextRound.1.isEmpty then .done s
      else fromQueries purpose n s := by
  rfl

variable {purpose} {s : Search × σ}

/-- The queries that a round sends. -/
def Round.queries (purpose : Purpose σ) (r : Round) : List (Address × Krpc.Query) :=
  r.asked.map fun c => (c.address, purpose.query)

/-- The contacts that a round asks, each with its reply. -/
def Round.replied (r : Round) : List (Contact × Reply) :=
  r.asked.zip r.replies

/-! ### Every course of a lookup consists of rounds -/

/-- The exchanges are those of at most `n` **rounds** that a lookup takes from `s` on, and `result`
is what it comes to. -/
structure InRounds (purpose : Purpose σ) (n : ℕ) (s : Search × σ) (exchanges : List Exchange)
    (result : Search × σ) : Prop where
  length_le : exchanges.length ≤ n
  result_eq : result = afterAll purpose s (exchanges.map (·.replies))
  queries_eq : exchanges.map (·.queries) =
    (rounds purpose s (exchanges.map (·.replies))).map (Round.queries purpose)

/-- A lookup that is over takes no round any more. -/
theorem inRounds_of_done {m : Moment} {n : ℕ} {exchanges : List Exchange} {result : Search × σ}
    (course : Activity.Course m (.done s) exchanges result) :
    InRounds purpose n s exchanges result := by
  obtain ⟨rfl, rfl⟩ := Activity.course_done_iff.mp course
  exact ⟨Nat.zero_le n, rfl, rfl⟩

/-- A round, and what is done in rounds after it. -/
theorem InRounds.cons {n : ℕ} {exchange : Exchange} {exchanges : List Exchange}
    {result : Search × σ}
    (sent : exchange.queries = s.1.nextRound.1.map fun c => (c.address, purpose.query))
    (h : InRounds purpose n (afterRound purpose s exchange.replies) exchanges result) :
    InRounds purpose (n + 1) s (exchange :: exchanges) result := by
  refine ⟨Nat.succ_le_succ h.length_le, h.result_eq, ?_⟩
  rw [List.map_cons, List.map_cons, rounds, List.map_cons, ← h.queries_eq, sent]
  rfl

/-- **Every course of a lookup consists of rounds**, as many as it may take at most. -/
theorem inRounds_of_course {m : Moment} {n : ℕ} {exchanges : List Exchange} {result : Search × σ}
    (course : Activity.Course m (run purpose n s) exchanges result) :
    InRounds purpose n s exchanges result := by
  induction n generalizing m s exchanges with
  | zero => exact inRounds_of_done course
  | succ n ih =>
      rw [run_succ, Activity.course_look_iff] at course
      split at course
      · exact inRounds_of_done course
      · split at course
        · exact inRounds_of_done course
        · obtain ⟨exchange, later, rest, rfl, sent, goesOn⟩ := Activity.course_ask_iff.mp course
          rw [Activity.course_look_iff, Activity.course_put_iff] at goesOn
          refine .cons sent ?_
          split at goesOn
          · exact inRounds_of_done goesOn
          · exact ih goesOn

/-- A lookup without rounds left is over. -/
theorem course_run_zero (m : Moment) : Activity.Course m (run purpose 0 s) [] s :=
  .ended rfl

/-- A lookup takes a round and goes on after it if the node is not shut down, there are candidates
left that may matter, and the round gets the search somewhere. -/
theorem course_run_of_round {m : Moment} (later : Moment) {n : ℕ} {exchange : Exchange}
    {exchanges : List Exchange} {result : Search × σ}
    (goes : (m.node.isClosed || s.1.isExhausted) = false)
    (asks : s.1.nextRound.1.isEmpty = false)
    (sent : exchange.queries = Round.queries purpose ⟨s.1, exchange.replies⟩)
    (improves : (afterRound purpose s exchange.replies).1.isStuck s.1.best? = false)
    (goesOn : Activity.Course
      { later with node := { later.node with
          table := recordAll later.node.table later.node.localId later.now
            (Round.mk s.1 exchange.replies).replied } }
      (run purpose n (afterRound purpose s exchange.replies)) exchanges result) :
    Activity.Course m (run purpose (n + 1) s) (exchange :: exchanges) result := by
  rw [run_succ, Activity.course_look_iff, goes, asks]
  refine Activity.course_ask_iff.mpr ⟨exchange, later, exchanges, rfl, sent, ?_⟩
  rw [Activity.course_look_iff, Activity.course_put_iff, improves]
  exact goesOn

theorem replies_rounds (answers : List (List Reply)) :
    (rounds purpose s answers).map Round.replies = answers := by
  induction answers generalizing s with
  | nil => rfl
  | cons replies answers ih => exact congrArg (replies :: ·) ih

/-- The exchanges and the rounds tell the same of queries and replies. -/
theorem InRounds.map_exchanges {n : ℕ} {exchanges : List Exchange} {result : Search × σ}
    (h : InRounds purpose n s exchanges result) :
    exchanges.map (fun e => (e.queries, e.replies)) =
      (rounds purpose s (exchanges.map (·.replies))).map fun r => (r.queries purpose, r.replies) := by
  rw [← List.zip_map', ← List.zip_map', h.queries_eq, replies_rounds]

/-- Every round is an exchange. -/
theorem InRounds.exists_exchange {n : ℕ} {exchanges : List Exchange} {result : Search × σ}
    (h : InRounds purpose n s exchanges result) {r : Round}
    (hr : r ∈ rounds purpose s (exchanges.map (·.replies))) :
    ∃ e ∈ exchanges, e.queries = r.queries purpose ∧ e.replies = r.replies := by
  have hmem := List.mem_map_of_mem (f := fun r : Round => (r.queries purpose, r.replies)) hr
  rw [← h.map_exchanges] at hmem
  obtain ⟨e, he, heq⟩ := List.mem_map.mp hmem
  exact ⟨e, he, Prod.mk.inj heq⟩

/-- Every exchange is a round. -/
theorem InRounds.exists_round {n : ℕ} {exchanges : List Exchange} {result : Search × σ}
    (h : InRounds purpose n s exchanges result) {e : Exchange} (he : e ∈ exchanges) :
    ∃ r ∈ rounds purpose s (exchanges.map (·.replies)),
      e.queries = r.queries purpose ∧ e.replies = r.replies := by
  have hmem := List.mem_map_of_mem (f := fun e : Exchange => (e.queries, e.replies)) he
  rw [h.map_exchanges] at hmem
  obtain ⟨r, hr, heq⟩ := List.mem_map.mp hmem
  exact ⟨r, hr, Prod.mk.inj heq.symm⟩

/-- In every round, each contact that was asked has a reply. -/
theorem InRounds.length_replies {n : ℕ} {exchanges : List Exchange} {result : Search × σ}
    (h : InRounds purpose n s exchanges result) {r : Round}
    (hr : r ∈ rounds purpose s (exchanges.map (·.replies))) :
    r.asked.length = r.replies.length := by
  obtain ⟨e, -, hqueries, hreplies⟩ := h.exists_exchange hr
  rw [← hreplies, e.length_eq, hqueries, Round.queries, List.length_map]

/-- Every reply in a round is that of a contact it asked. -/
theorem InRounds.exists_asked {n : ℕ} {exchanges : List Exchange} {result : Search × σ}
    (h : InRounds purpose n s exchanges result) {r : Round}
    (hr : r ∈ rounds purpose s (exchanges.map (·.replies))) {reply : Reply}
    (hreply : reply ∈ r.replies) : ∃ asked, (asked, reply) ∈ r.replied := by
  have hsnd : r.replied.map Prod.snd = r.replies :=
    List.map_snd_zip (Nat.le_of_eq (h.length_replies hr).symm)
  rw [← hsnd] at hreply
  obtain ⟨⟨asked, reply⟩, hmem, rfl⟩ := List.mem_map.mp hreply
  exact ⟨asked, hmem⟩

/-- The search that a lookup begins with at a node. -/
def beginning (node : Node) (target : Key) (seeds : Seeds) : Search :=
  let s := Search.create target node.localId node.table.capacity node.settings.parallelism
  s.hearOfAll <| match seeds with
    | .table => node.table.closest target s.wanted
    | .given contacts => contacts

/-- A lookup takes its rounds from the search that it begins with at the node it finds. -/
theorem inRounds_of_start {m : Moment} {target : Key} {nothing : σ} {seeds : Seeds}
    {exchanges : List Exchange} {result : Search × σ}
    (course : Activity.Course m (start target purpose nothing seeds) exchanges result) :
    InRounds purpose m.node.settings.maxRounds (beginning m.node target seeds, nothing) exchanges
      result :=
  inRounds_of_course (Activity.course_look_iff.mp course)

theorem inOrder_beginning (node : Node) (target : Key) (seeds : Seeds) :
    (beginning node target seeds).InOrder :=
  (Search.inOrder_create ..).hearOfAll _

theorem sameAim_beginning (node : Node) (target : Key) (seeds : Seeds) :
    Search.SameAim
      (.create target node.localId node.table.capacity node.settings.parallelism)
      (beginning node target seeds) :=
  Search.sameAim_hearOfAll _ _

/-- At the beginning nobody has answered. -/
theorem answered_beginning (node : Node) (target : Key) (seeds : Seeds) :
    (beginning node target seeds).answered = [] := by
  simp only [beginning]
  rw [Search.hearOfAll_eq]
  rfl

/-! ### What comes of replies -/

/-- Among the replies is a response that the contact, which is not the searcher itself, has
**answered** with: it carries the contact's id, and the contact's address had been asked. -/
def Answered (localId : Key) (replies : List (Contact × Reply)) (contact : Contact) : Prop :=
  contact.id ≠ localId ∧
    ∃ asked response, (asked, .ok response) ∈ replies ∧ contact = responder asked response

theorem answered_append_iff {localId : Key} {replies replies' : List (Contact × Reply)}
    {contact : Contact} :
    Answered localId (replies ++ replies') contact ↔
      Answered localId replies contact ∨ Answered localId replies' contact := by
  simp only [Answered, List.mem_append]
  constructor
  · rintro ⟨other, asked, response, hmem | hmem, rfl⟩
    · exact .inl ⟨other, asked, response, hmem, rfl⟩
    · exact .inr ⟨other, asked, response, hmem, rfl⟩
  · rintro (⟨other, asked, response, hmem, rfl⟩ | ⟨other, asked, response, hmem, rfl⟩)
    · exact ⟨other, asked, response, .inl hmem, rfl⟩
    · exact ⟨other, asked, response, .inr hmem, rfl⟩

/-- **What comes of replies**: the search stays in order and keeps its aim, what was not to be
asked stays so, and those that have answered join the contacts that answered before. -/
structure Absorbed (replies : List (Contact × Reply)) (s s' : Search) : Prop where
  inOrder : s'.InOrder
  sameAim : Search.SameAim s s'
  asked_subset : s.asked ⊆ s'.asked
  mem_ids_iff : ∀ id, id ∈ s'.answered.map Contact.id ↔
    id ∈ s.answered.map Contact.id ∨ ∃ contact, Answered s.localId replies contact ∧ contact.id = id
  source : ∀ contact ∈ s'.answered, contact ∈ s.answered ∨ Answered s.localId replies contact

theorem Absorbed.nil {s s' : Search} (h : s'.InOrder) (hAim : Search.SameAim s s')
    (hAsked : s.asked ⊆ s'.asked) (hAnswered : s'.answered = s.answered) :
    Absorbed [] s s' := by
  refine ⟨h, hAim, hAsked, fun id => ?_, fun contact hmem => .inl (hAnswered ▸ hmem)⟩
  rw [hAnswered]
  simp [Answered]

theorem Absorbed.append {s s' s'' : Search} {replies replies' : List (Contact × Reply)}
    (h : Absorbed replies s s') (h' : Absorbed replies' s' s'') :
    Absorbed (replies ++ replies') s s'' := by
  refine ⟨h'.inOrder, h.sameAim.trans h'.sameAim,
    List.Subset.trans h.asked_subset h'.asked_subset, ?_, ?_⟩
  · intro id
    simp only [h'.mem_ids_iff, h.mem_ids_iff, answered_append_iff, or_and_right, exists_or,
      h.sameAim.localId, or_assoc]
  · intro contact hmem
    rw [answered_append_iff]
    obtain hmem | hmem := h'.source contact hmem
    · exact (h.source contact hmem).imp_right .inl
    · exact .inr (.inr (h.sameAim.localId ▸ hmem))

/-- An id under which somebody has answered is not to be asked any more. -/
theorem Absorbed.mem_asked_of_answered {s s' : Search} {replies : List (Contact × Reply)}
    (h : Absorbed replies s s') {contact : Contact}
    (answered : Answered s.localId replies contact) : contact.id ∈ s'.asked := by
  obtain ⟨c, hc, hid⟩ :=
    List.mem_map.mp ((h.mem_ids_iff contact.id).mpr (.inr ⟨contact, answered, rfl⟩))
  rw [← hid]
  exact (h.inOrder.known c hc).2

/-- What comes of one reply. -/
theorem absorbed_absorb (h : s.1.InOrder) {asked : Contact} (known : asked.id ∈ s.1.asked)
    (reply : Reply) : Absorbed [(asked, reply)] s.1 (absorb purpose s asked reply).1 := by
  have hself : ∀ {reply : Reply}, (∀ response, reply = .ok response → response.id = s.1.localId) →
      Absorbed [(asked, reply)] s.1 s.1 := by
    intro reply hignored
    refine ⟨h, .refl _, fun id hid => hid, fun id => ?_, fun contact hmem => .inl hmem⟩
    refine (or_iff_left ?_).symm
    rintro ⟨_, ⟨other, asked', response, hmem, rfl⟩, -⟩
    obtain ⟨rfl, rfl⟩ := Prod.mk.inj (List.mem_singleton.mp hmem)
    exact other (hignored response rfl)
  cases reply with
  | error e => exact hself nofun
  | ok response =>
      simp only [absorb]
      split
      · next own => exact hself fun response' heq => Except.ok.inj heq ▸ own
      · next other =>
          have hanswered : Answered s.1.localId [(asked, .ok response)] (responder asked response) :=
            ⟨other, asked, response, List.mem_singleton_self _, rfl⟩
          refine ⟨h.accept known, s.1.sameAim_accept _ _ _, fun id hid => ?_, fun id => ?_, ?_⟩
          · exact (Search.mem_asked_accept_iff other known).mpr (.inr hid)
          · rw [Search.answered_accept other, mem_ids_insertNearest_iff, or_comm]
            refine or_congr_right ⟨fun heq => ⟨_, hanswered, heq.symm⟩, ?_⟩
            rintro ⟨_, ⟨-, asked', response', hmem, rfl⟩, rfl⟩
            obtain ⟨rfl, heq⟩ := Prod.mk.inj (List.mem_singleton.mp hmem)
            rw [Except.ok.inj heq]
            rfl
          · intro contact hmem
            rw [Search.answered_accept other] at hmem
            obtain rfl | hmem := mem_of_mem_insertNearest hmem
            · exact .inr hanswered
            · exact .inl hmem

/-- What comes of several replies. -/
theorem absorbed_absorbAll (h : s.1.InOrder) {replies : List (Contact × Reply)}
    (known : ∀ p ∈ replies, p.1.id ∈ s.1.asked) :
    Absorbed replies s.1 (absorbAll purpose s replies).1 := by
  induction replies generalizing s with
  | nil => exact .nil h (.refl _) (fun id hid => hid) rfl
  | cons p replies ih =>
      have hfirst : Absorbed [p] s.1 (absorb purpose s p.1 p.2).1 :=
        absorbed_absorb h (known p List.mem_cons_self) p.2
      refine hfirst.append (ih hfirst.inOrder fun q hq => ?_)
      exact hfirst.asked_subset (known q (List.mem_cons_of_mem p hq))

/-- What comes of the replies in a round, once it has begun. -/
theorem absorbed_replied (h : s.1.InOrder) (replies : List Reply) :
    Absorbed (Round.mk s.1 replies).replied s.1.nextRound.2 (afterRound purpose s replies).1 := by
  refine absorbed_absorbAll (s := (s.1.nextRound.2, s.2)) h.nextRound ?_
  rintro ⟨c, reply⟩ hmem
  exact Search.mem_asked_nextRound_iff.mpr (.inl (List.mem_map_of_mem (List.of_mem_zip hmem).1))

/-- **What comes of a round.** -/
theorem absorbed_afterRound (purpose : Purpose σ) (h : s.1.InOrder) (replies : List Reply) :
    Absorbed (Round.mk s.1 replies).replied s.1 (afterRound purpose s replies).1 := by
  have hbegun : Absorbed [] s.1 s.1.nextRound.2 := by
    refine .nil h.nextRound s.1.sameAim_nextRound (fun id hid => ?_) ?_
    · exact Search.mem_asked_nextRound_iff.mpr (.inr hid)
    · rw [Search.nextRound_eq]
  exact hbegun.append (absorbed_replied h replies)

/-- **What comes of all rounds.** -/
theorem absorbed_afterAll (purpose : Purpose σ) (h : s.1.InOrder) (answers : List (List Reply)) :
    Absorbed ((rounds purpose s answers).flatMap Round.replied) s.1 (afterAll purpose s answers).1 := by
  induction answers generalizing s with
  | nil => exact .nil h (.refl _) (fun id hid => hid) rfl
  | cons replies answers ih =>
      have hfirst := absorbed_afterRound purpose h replies
      exact hfirst.append (ih hfirst.inOrder)

/-- **What comes of a whole lookup**, in every course of it. -/
theorem absorbed_of_course {m : Moment} {target : Key} {nothing : σ} {seeds : Seeds}
    {exchanges : List Exchange} {result : Search × σ}
    (course : Activity.Course m (start target purpose nothing seeds) exchanges result) :
    Absorbed ((rounds purpose (beginning m.node target seeds, nothing)
        (exchanges.map (·.replies))).flatMap Round.replied)
      (beginning m.node target seeds) result.1 := by
  have habsorbed := absorbed_afterAll purpose (s := (beginning m.node target seeds, nothing))
    (inOrder_beginning m.node target seeds) (exchanges.map (·.replies))
  rwa [← (inRounds_of_start course).result_eq] at habsorbed

/-- The aim that a lookup ends with: as many contacts are wanted as a bucket of the routing table
holds, but at least one. -/
theorem wanted_of_course {m : Moment} {target : Key} {nothing : σ} {seeds : Seeds}
    {exchanges : List Exchange} {result : Search × σ}
    (course : Activity.Course m (start target purpose nothing seeds) exchanges result) :
    result.1.wanted = max 1 m.node.table.capacity := by
  have hbegun := (sameAim_beginning m.node target seeds).wanted
  exact ((absorbed_of_course course).sameAim.wanted.trans hbegun).trans (Nat.max_comm _ _)

/-- A lookup asks nothing but what its purpose is to ask. -/
theorem query_eq_of_course {m : Moment} {target : Key} {nothing : σ} {seeds : Seeds}
    {exchanges : List Exchange} {result : Search × σ}
    (course : Activity.Course m (start target purpose nothing seeds) exchanges result)
    {e : Exchange} (he : e ∈ exchanges) : ∀ q ∈ e.queries, q.2 = purpose.query := by
  intro q hq
  obtain ⟨r, -, hqueries, -⟩ := (inRounds_of_start course).exists_round he
  rw [hqueries] at hq
  obtain ⟨c, -, rfl⟩ := List.mem_map.mp hq
  rfl

end Mainline.Lookup
