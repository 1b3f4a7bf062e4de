import Mainline.Proofs.Lookup.Hearing

/-!
# Why a lookup stops

A lookup looks in two places whether it is to go on: before a round, and after one. Each way of
stopping is a cause of its own (`Stopped`), and every course of a lookup ends with one of them. What
a cause says of the search is said here in terms of the candidates that are left and of the ids
under which somebody has responded.

Together with the fact that a lookup forgets nobody it has heard of, this says that a lookup that
stops with fewer responders than are wanted, although it was neither shut down nor out of rounds,
has tried everybody.

## Main results

* `stopped_of_courseTo`: every course of a lookup ends with a cause.
* `Search.InOrder.exhausted`, `Search.InOrder.stuck`: what the causes say of the search.
* `loses_nobody_and_stops_with_cause`: all of this for every course of a lookup.
-/

namespace Mainline

namespace Search

variable {s : Search}

/-! ### What the causes say -/

/-- All candidates of an exhausted search are farther away than the last contact that is wanted. -/
theorem InOrder.exhausted (h : s.InOrder) (exhausted : s.isExhausted = true) :
    ∃ last, s.answered[s.wanted - 1]? = some last ∧
      ∀ c ∈ s.candidates, last.id.distance s.target < c.id.distance s.target := by
  rw [isExhausted] at exhausted
  split at exhausted
  · cases exhausted
  · next last hlast hnone =>
      rw [List.head?_eq_none_iff.mp hnone]
      exact ⟨last, hlast, List.forall_mem_nil _⟩
  · next last nearest hlast hnearest =>
      obtain ⟨candidates, hcandidates⟩ := List.head?_eq_some_iff.mp hnearest
      have hlt := of_decide_eq_true exhausted
      refine ⟨last, hlast, fun c hc => ?_⟩
      have hordered := h.candidates
      rw [hcandidates] at hc hordered
      obtain rfl | hc := List.mem_cons.mp hc
      · exact hlt
      · exact lt_trans hlt ((List.pairwise_cons.mp hordered).1 c hc)

/-- The contact that answered nearest to the target is one that answered. -/
theorem exists_of_best? {d : Distance} (h : s.best? = some d) :
    ∃ c ∈ s.answered, c.id.distance s.target = d := by
  obtain ⟨c, hc, rfl⟩ := Option.map_eq_some_iff.mp h
  exact ⟨c, List.mem_of_mem_head? hc, rfl⟩

/-- A search that is stuck has as many contacts as are wanted, and none is nearer than the best one
before. -/
theorem InOrder.stuck (h : s.InOrder) (positive : 0 < s.wanted) {before : Option Distance}
    (stuck : s.isStuck before = true) :
    s.wanted ≤ s.answered.length ∧
      ∃ best, before = some best ∧ ∀ c ∈ s.answered, best ≤ c.id.distance s.target := by
  obtain ⟨himproved, hmany⟩ := Bool.and_eq_true_iff.mp stuck
  have hmany : s.wanted ≤ s.answered.length := of_decide_eq_true hmany
  refine ⟨hmany, ?_⟩
  obtain ⟨first, rest, hanswered⟩ :=
    List.exists_cons_of_length_pos (Nat.lt_of_lt_of_le positive hmany)
  have hbest : s.best? = some (first.id.distance s.target) := by
    rw [best?, hanswered]
    rfl
  rw [hbest] at himproved
  cases before with
  | none => cases himproved
  | some best =>
      rw [Bool.not_eq_true', decide_eq_false_iff_not, not_lt] at himproved
      refine ⟨best, rfl, fun c hc => ?_⟩
      have hordered := h.answered
      rw [hanswered] at hc hordered
      obtain rfl | hc := List.mem_cons.mp hc
      · exact himproved
      · exact le_trans himproved (le_of_lt ((List.pairwise_cons.mp hordered).1 c hc))

end Search

namespace Lookup

variable {σ : Type} {purpose : Purpose σ} {s : Search × σ}

/-! ### Every course of a lookup ends with a cause -/

/-- The causes with which a lookup stops that takes at most `n` rounds from `s` on: it ends at the
moment `final`, after these exchanges and with this result. -/
inductive Stopped (purpose : Purpose σ) (n : ℕ) (s : Search × σ) (exchanges : List Exchange)
    (final : Moment) (result : Search × σ) : Prop
  | closed (closed : final.node.isClosed = true)
  | outOfRounds (length_eq : exchanges.length = n)
  | exhausted (exhausted : result.1.isExhausted = true)
  | outOfCandidates (none : result.1.nextRound.1 = [])
  | stuck {before : List Exchange} {last : Exchange} (split : exchanges = before ++ [last])
      (stuck : result.1.isStuck (afterAll purpose s (before.map (·.replies))).1.best? = true)

/-- A cause to stop after further rounds is one after all of them. -/
theorem Stopped.cons {n : ℕ} {exchange : Exchange} {exchanges : List Exchange} {final : Moment}
    {result : Search × σ}
    (h : Stopped purpose n (afterRound purpose s exchange.replies) exchanges final result) :
    Stopped purpose (n + 1) s (exchange :: exchanges) final result := by
  cases h with
  | closed closed => exact .closed closed
  | outOfRounds length_eq => exact .outOfRounds (congrArg (· + 1) length_eq)
  | exhausted exhausted => exact .exhausted exhausted
  | outOfCandidates none => exact .outOfCandidates none
  | @stuck before last split stuck =>
      have split : exchange :: exchanges = exchange :: before ++ [last] :=
        congrArg (exchange :: ·) split
      exact .stuck split stuck

/-- **Every course of a lookup ends with a cause.** -/
theorem stopped_of_courseTo {m final : Moment} {n : ℕ} {exchanges : List Exchange}
    {result : Search × σ}
    (course : Activity.CourseTo m (run purpose n s) exchanges final result) :
    Stopped purpose n s exchanges final result := by
  induction n generalizing m s exchanges with
  | zero =>
      obtain ⟨rfl, -, -⟩ := Activity.courseTo_done_iff.mp course
      exact .outOfRounds rfl
  | succ n ih =>
      rw [run_succ, Activity.courseTo_look_iff] at course
      split at course
      · next stops =>
          obtain ⟨rfl, rfl, rfl⟩ := Activity.courseTo_done_iff.mp course
          obtain closed | exhausted := Bool.or_eq_true_iff.mp stops
          · exact .closed closed
          · exact .exhausted exhausted
      · split at course
        · next none =>
            obtain ⟨rfl, rfl, rfl⟩ := Activity.courseTo_done_iff.mp course
            exact .outOfCandidates (List.isEmpty_iff.mp none)
        · obtain ⟨exchange, later, rest, rfl, -, goesOn⟩ := Activity.courseTo_ask_iff.mp course
          rw [Activity.courseTo_look_iff, Activity.courseTo_put_iff] at goesOn
          split at goesOn
          · next stuck =>
              obtain ⟨rfl, rfl, rfl⟩ := Activity.courseTo_done_iff.mp goesOn
              exact .stuck (List.nil_append [exchange]).symm stuck
          · exact (ih goesOn).cons

/-! ### Who has responded -/

/-- Somebody has **responded** under this id, which is not the searcher's own. -/
def Responded (localId : Key) (exchanges : List Exchange) (id : Key) : Prop :=
  id ≠ localId ∧ ∃ e ∈ exchanges, ∃ response, .ok response ∈ e.replies ∧ response.id = id

/-- Who has answered in the rounds of a lookup has responded. -/
theorem responded_of_answered {localId : Key} {exchanges : List Exchange} {contact : Contact}
    (h : Answered localId
      ((rounds purpose s (exchanges.map (·.replies))).flatMap Round.replied) contact) :
    Responded localId exchanges contact.id := by
  obtain ⟨other, asked, response, hmem, rfl⟩ := h
  obtain ⟨r, hr, hmem⟩ := List.mem_flatMap.mp hmem
  have hall : (rounds purpose s (exchanges.map (·.replies))).map Round.replies =
      exchanges.map (·.replies) := replies_rounds _
  have hreplies : r.replies ∈ exchanges.map (·.replies) := hall ▸ List.mem_map_of_mem hr
  obtain ⟨e, he, heq⟩ := List.mem_map.mp hreplies
  exact ⟨other, e, he, response, heq ▸ (List.of_mem_zip hmem).2, rfl⟩

/-- Somebody has responded under an id exactly if a contact with this id has answered. -/
theorem InRounds.responded_iff {n : ℕ} {exchanges : List Exchange} {result : Search × σ}
    (h : InRounds purpose n s exchanges result) {localId id : Key} :
    Responded localId exchanges id ↔ ∃ contact, Answered localId
      ((rounds purpose s (exchanges.map (·.replies))).flatMap Round.replied) contact ∧
        contact.id = id := by
  constructor
  · rintro ⟨other, e, he, response, hresponse, rfl⟩
    obtain ⟨r, hr, -, hreplies⟩ := h.exists_round he
    obtain ⟨asked, hmem⟩ := h.exists_asked hr (hreplies ▸ hresponse)
    exact ⟨responder asked response,
      ⟨other, asked, response, List.mem_flatMap.mpr ⟨r, hr, hmem⟩, rfl⟩, rfl⟩
  · rintro ⟨contact, answered, rfl⟩
    exact responded_of_answered answered

namespace InRounds

variable {n : ℕ} {exchanges : List Exchange} {result : Search × σ}
  (h : InRounds purpose n s exchanges result)
include h

/-- If nobody had answered before, those who have answered in the end are those that have
responded. -/
theorem mem_answered_iff (inOrder : s.1.InOrder) (nobody : s.1.answered = []) {id : Key} :
    id ∈ result.1.answered.map Contact.id ↔ Responded s.1.localId exchanges id := by
  rw [h.result_eq, (absorbed_afterAll purpose inOrder _).mem_ids_iff, nobody, h.responded_iff]
  exact or_iff_right List.not_mem_nil

/-- A lookup is told of the nodes in every response under another id than the searcher's. -/
theorem exists_nodes_subset {e : Exchange} (he : e ∈ exchanges) {response : Krpc.Response}
    (hresponse : .ok response ∈ e.replies) (other : response.id ≠ s.1.localId) :
    ∃ found, purpose.nodes found response ⊆ told purpose s (exchanges.map (·.replies)) := by
  obtain ⟨r, hr, -, hreplies⟩ := h.exists_round he
  obtain ⟨asked, hmem⟩ := h.exists_asked hr (hreplies ▸ hresponse)
  exact exists_nodes_subset_told (List.mem_flatMap.mpr ⟨r, hr, hmem⟩) other

/-- **No contact is lost.** If nobody had been asked before, then an id that the search knew or has
been told of since has been asked, or somebody has responded under it, or it is a candidate. -/
theorem asked_or_responded_or_candidate (nobody : s.1.asked = []) {id : Key}
    (other : id ≠ s.1.localId)
    (heard : s.1.Knows id ∨ id ∈ (told purpose s (exchanges.map (·.replies))).map Contact.id) :
    (id ∈ ((rounds purpose s (exchanges.map (·.replies))).flatMap Round.asked).map Contact.id ∨
        Responded s.1.localId exchanges id) ∨
      id ∈ result.1.candidates.map Contact.id := by
  have retained := retained_afterAll purpose s (exchanges.map (·.replies))
  rw [← h.result_eq] at retained
  obtain own | marked | candidate := retained.knows id heard
  · exact absurd (own.trans retained.localId) other
  · obtain before | asked | answered := retained.asked id marked
    · rw [nobody] at before
      cases before
    · exact .inl (.inl asked)
    · exact .inl (.inr (h.responded_iff.mpr answered))
  · exact .inr candidate

/-- **What the cause says** with which a lookup stops that began with nobody. -/
theorem cause {final : Moment} (stopped : Stopped purpose n s exchanges final result)
    (inOrder : s.1.InOrder) (nobody : s.1.answered = []) (wanted : 0 < s.1.wanted)
    (parallel : 1 ≤ s.1.parallelism) :
    final.node.isClosed = true ∨ exchanges.length = n ∨ result.1.candidates = [] ∨
      (∃ last, (result.1.answered.map Contact.id)[s.1.wanted - 1]? = some last ∧
        ∀ c ∈ result.1.candidates, last.distance s.1.target < c.id.distance s.1.target) ∨
      (s.1.wanted ≤ (result.1.answered.map Contact.id).length ∧
        ∃ before last, exchanges = before ++ [last] ∧
          ∃ best, Responded s.1.localId before best ∧ ∀ id, Responded s.1.localId [last] id →
            best.distance s.1.target ≤ id.distance s.1.target) := by
  have habsorbed := absorbed_afterAll purpose inOrder (exchanges.map (·.replies))
  rw [← h.result_eq] at habsorbed
  have aim := habsorbed.sameAim
  cases stopped with
  | closed closed => exact .inl closed
  | outOfRounds length_eq => exact .inr (.inl length_eq)
  | outOfCandidates none =>
      refine .inr (.inr (.inl ?_))
      have hnone : result.1.candidates.take result.1.parallelism = [] := none
      rw [aim.parallelism, List.take_eq_nil_iff] at hnone
      exact hnone.resolve_left (Nat.ne_of_gt parallel)
  | exhausted exhausted =>
      obtain ⟨last, hlast, hfarther⟩ := habsorbed.inOrder.exhausted exhausted
      rw [aim.wanted] at hlast
      rw [aim.target] at hfarther
      refine .inr (.inr (.inr (.inl ⟨last.id, ?_, hfarther⟩)))
      rw [List.getElem?_map, hlast, Option.map_some]
  | @stuck before last split stuck =>
      obtain ⟨hmany, best, hbefore, hnearest⟩ :=
        habsorbed.inOrder.stuck (aim.wanted ▸ wanted) stuck
      have hbeforeAbsorbed := absorbed_afterAll purpose inOrder (before.map (·.replies))
      obtain ⟨c, hc, rfl⟩ := Search.exists_of_best? hbefore
      have hcBefore := (hbeforeAbsorbed.source c hc).resolve_left (by simp [nobody])
      rw [aim.wanted] at hmany
      refine .inr (.inr (.inr (.inr ⟨(List.length_map _).symm ▸ hmany, before, last, split, c.id,
        responded_of_answered hcBefore, fun id hid => ?_⟩)))
      have hall : Responded s.1.localId exchanges id := by
        obtain ⟨other, e, he, hresponse⟩ := hid
        exact ⟨other, e, split ▸ List.mem_append_right before he, hresponse⟩
      obtain ⟨d, hd, rfl⟩ := List.mem_map.mp ((h.mem_answered_iff inOrder nobody).mpr hall)
      have hle := hnearest d hd
      rw [hbeforeAbsorbed.sameAim.target, aim.target] at hle
      exact hle

end InRounds

/-! ### The law -/

/-- The contacts that a lookup is seeded with at a node. -/
def Seeds.contacts (seeds : Seeds) (node : Node) (target : Key) : List Contact :=
  match seeds with
  | .table => node.table.closest target (max node.table.capacity 1)
  | .given contacts => contacts

theorem beginning_eq (node : Node) (target : Key) (seeds : Seeds) :
    beginning node target seeds =
      (Search.create target node.localId node.table.capacity node.settings.parallelism).hearOfAll
        (seeds.contacts node target) := by
  cases seeds <;> rfl

/-- At the beginning nobody has been asked. -/
theorem asked_beginning (node : Node) (target : Key) (seeds : Seeds) :
    (beginning node target seeds).asked = [] := by
  rw [beginning_eq, Search.hearOfAll_eq]
  rfl

/-- **A lookup loses nobody, and stops with a cause.** Take any course of a lookup that may ask
somebody at all, whatever the replies are and whatever happens to the node meanwhile. Every id that
it has heard of from a seed or a response, except for its own, has been asked when it ends, or is
one under which somebody has responded, or is a candidate still. And at least one of these is the
case:

* the node has been shut down;
* the lookup has used up its rounds;
* no candidate is left;
* as many have responded as are wanted, and all candidates are farther away than the last of them;
* as many have responded as are wanted, and nobody in the last round is nearer than the best one
  before it.

So a lookup with fewer responders, in a node that is not shut down, with rounds left, has tried
every id that it has heard of. -/
theorem loses_nobody_and_stops_with_cause (target : Key) (purpose : Purpose σ) (nothing : σ)
    (seeds : Seeds) (m final : Moment) (parallel : 1 ≤ m.node.settings.parallelism)
    (exchanges : List Exchange) (result : Search × σ)
    (course : Activity.CourseTo m (start target purpose nothing seeds) exchanges final result) :
    let s := (beginning m.node target seeds, nothing)
    let rs := rounds purpose s (exchanges.map (·.replies))
    let named := told purpose s (exchanges.map (·.replies))
    let responded := Responded m.node.localId exchanges
    let tried (id : Key) := id ∈ (rs.flatMap Round.asked).map Contact.id ∨ responded id
    let candidates := result.1.candidates
    let responders := result.1.answered.map Contact.id
    let k := max 1 m.node.table.capacity
    (exchanges.map (·.queries) = rs.map (Round.queries purpose) ∧
      (∀ e ∈ exchanges, ∀ response, .ok response ∈ e.replies → response.id ≠ m.node.localId →
        ∃ found, purpose.nodes found response ⊆ named) ∧
      (responders.Pairwise fun a b => a.distance target < b.distance target) ∧
      ∀ id, id ∈ responders ↔ responded id) ∧
    (∀ contact ∈ seeds.contacts m.node target ++ named, contact.id ≠ m.node.localId →
      tried contact.id ∨ contact.id ∈ candidates.map Contact.id) ∧
    (final.node.isClosed = true ∨ exchanges.length = m.node.settings.maxRounds ∨ candidates = [] ∨
      (∃ last, responders[k - 1]? = some last ∧
        ∀ c ∈ candidates, last.distance target < c.id.distance target) ∨
      (k ≤ responders.length ∧ ∃ before last, exchanges = before ++ [last] ∧
        ∃ best, Responded m.node.localId before best ∧
          ∀ id, Responded m.node.localId [last] id → best.distance target ≤ id.distance target)) ∧
    (responders.length < k → final.node.isClosed = false →
      exchanges.length < m.node.settings.maxRounds →
        ∀ contact ∈ seeds.contacts m.node target ++ named, contact.id ≠ m.node.localId →
          tried contact.id) := by
  intro s rs named responded tried candidates responders k
  have hrounds := inRounds_of_start (Activity.course_iff_exists_courseTo.mpr ⟨final, course⟩)
  have stopped : Stopped purpose m.node.settings.maxRounds s exchanges final result :=
    stopped_of_courseTo (Activity.courseTo_look_iff.mp course)
  have inOrder : s.1.InOrder := inOrder_beginning m.node target seeds
  have aim := sameAim_beginning m.node target seeds
  have hlocal : s.1.localId = m.node.localId := aim.localId
  have htarget : s.1.target = target := aim.target
  have hwanted : s.1.wanted = k := aim.wanted.trans (Nat.max_comm _ _)
  have hparallel : s.1.parallelism = m.node.settings.parallelism := aim.parallelism
  have nobody : s.1.answered = [] := answered_beginning m.node target seeds
  have hk : 0 < k := Nat.le_max_left _ _
  have hkept : ∀ contact ∈ seeds.contacts m.node target ++ named, contact.id ≠ m.node.localId →
      tried contact.id ∨ contact.id ∈ candidates.map Contact.id := by
    intro contact hcontact other
    have hheard : s.1.Knows contact.id ∨ contact.id ∈ named.map Contact.id := by
      obtain hseed | hnamed := List.mem_append.mp hcontact
      · rw [show s.1 = _ from beginning_eq m.node target seeds]
        exact .inl (Search.knows_hearOfAll (.inr (List.mem_map_of_mem hseed)))
      · exact .inr (List.mem_map_of_mem hnamed)
    have hwhere := hrounds.asked_or_responded_or_candidate
      (asked_beginning m.node target seeds) (hlocal ▸ other) hheard
    rwa [hlocal] at hwhere
  have hcause := hrounds.cause stopped inOrder nobody (hwanted ▸ hk) (hparallel ▸ parallel)
  rw [hlocal, htarget, hwanted] at hcause
  refine ⟨⟨hrounds.queries_eq, ?_, ?_, fun id => ?_⟩, hkept, hcause, ?_⟩
  · intro e he response hresponse other
    exact hrounds.exists_nodes_subset he hresponse (hlocal ▸ other)
  · have habsorbed := absorbed_afterAll purpose inOrder (exchanges.map (·.replies))
    rw [← hrounds.result_eq] at habsorbed
    have hordered := habsorbed.inOrder.answered
    rw [habsorbed.sameAim.target, htarget] at hordered
    exact List.pairwise_map.mpr hordered
  · have hresponders : id ∈ responders ↔ Responded s.1.localId exchanges id :=
      hrounds.mem_answered_iff inOrder nobody
    rwa [hlocal] at hresponders
  · intro few running roundsLeft contact hcontact other
    refine (hkept contact hcontact other).resolve_right ?_
    obtain closed | capped | none | ⟨last, hlast, -⟩ | ⟨hmany, -⟩ := hcause
    · rw [running] at closed
      cases closed
    · exact absurd capped (Nat.ne_of_lt roundsLeft)
    · rw [show candidates = [] from none]
      exact List.not_mem_nil
    · obtain ⟨hlt, -⟩ := List.getElem?_eq_some_iff.mp hlast
      have hlt : k - 1 < responders.length := hlt
      omega
    · exact absurd hmany (Nat.not_le.mpr few)

/-- A lookup with two rounds and one query in each is told of two contacts: it asks the nearer one,
which does not answer, and the other one is left as a candidate. -/
theorem one_asked_and_one_left :
    let key (n : ℕ) : Key := ⟨BitVec.ofNat 160 n⟩
    let contact (n : ℕ) : Contact := ⟨key n, .v4 ⟨10, 0, 0, UInt8.ofNat n⟩ 6881⟩
    let node := (Node.create (key 0) (.v4 ⟨10, 0, 0, 9⟩ 6881)
      { parallelism := 1, maxRounds := 2 } 0 ⟨[], 2⟩).1
    let m : Moment := ⟨node, 0, ⟨[], 3⟩⟩
    let purpose := Purpose.findNode (key 7)
    let seeds : Seeds := .given [contact 1]
    let exchanges : List Exchange :=
      [⟨[((contact 1).address, purpose.query)],
          [.ok (.findNode (key 1) [contact 2, contact 3])], rfl⟩,
        ⟨[((contact 3).address, purpose.query)], [.error .timeout], rfl⟩]
    let s := (beginning node (key 7) seeds, ())
    let rs := rounds purpose s (exchanges.map (·.replies))
    ∃ final result, Activity.CourseTo m (start (key 7) purpose () seeds) exchanges final result ∧
      told purpose s (exchanges.map (·.replies)) = [contact 2, contact 3] ∧
      result.1.candidates = [contact 2] ∧
      (key 3 ∈ (rs.flatMap Round.asked).map Contact.id ∨ Responded (key 0) exchanges (key 3)) := by
  intro key contact node m purpose seeds exchanges s rs
  have hcourse : ∃ result, Activity.Course m (run purpose 2 s) exchanges result ∧
      result.1.candidates = [contact 2] := by
    refine ⟨_, course_run_of_round m ?_ ?_ ?_ ?_ <|
      course_run_of_round m ?_ ?_ ?_ ?_ (course_run_zero _), ?_⟩
    all_goals decide +kernel
  obtain ⟨result, course, hcandidates⟩ := hcourse
  obtain ⟨final, course⟩ := Activity.course_iff_exists_courseTo.mp course
  have course : Activity.CourseTo m (start (key 7) purpose () seeds) exchanges final result :=
    Activity.courseTo_look_iff.mpr course
  have htold : told purpose s (exchanges.map (·.replies)) = [contact 2, contact 3] := by
    decide +kernel
  have law := loses_nobody_and_stops_with_cause (key 7) purpose () seeds m final (by decide +kernel)
    exchanges result course
  have hmem : contact 3 ∈
      seeds.contacts node (key 7) ++ told purpose s (exchanges.map (·.replies)) := by
    rw [htold]
    decide +kernel
  have hwhere := law.2.1 (contact 3) hmem (by decide +kernel)
  rw [hcandidates] at hwhere
  exact ⟨final, result, course, htold, hcandidates, hwhere.resolve_right (by decide +kernel)⟩

end Lookup

end Mainline
