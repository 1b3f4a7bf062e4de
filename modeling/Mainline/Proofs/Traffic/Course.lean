import Mathlib.Data.List.Induction
import Mainline.Node
import Mainline.Proofs.Krpc.Reading
import Mainline.Proofs.Traffic.Books

/-!
# The course of a node's queries

Any number of tasks may use a node at once. Each does something to it without interruption and
then lets others go on, so all that can happen to a node's queries is a list of *events*, in any
order: somebody asks a question, a datagram is read or dealt with, whoever waits for a query has a
turn or gives up, the node is shut down, time passes, or the node does something that does not
concern its queries.

A datagram is taken in two events. It is read by the methods of the queries that wait at that
moment, and what has been read is dealt with by the queries that wait then. Handing an answer over
and the turn in which the query ends are events of their own, too, and so anything may happen in
between.

## Main results

* `Event.effect`: what an event does to the books, one rule for each way.
* `Asks.books_eq`, `Answers.books_eq`, `Ends.books_eq`: what questions, answers and ends of queries
  do to them.
* `sound_runAll`: the books are sound at every moment.
* `Asks.entry_eq`: what the books tell of a question at any later moment.
-/

namespace Mainline

/-- The reply that a message brings, if it is an answer. -/
def Krpc.Body.reply? : Krpc.Body → Option Reply
  | .query .. => none
  | .response r => some (.ok r)
  | .error e => some (.error (.remote e))

namespace Traffic

/-- A node at an instant. -/
structure State where
  node : Node
  now : Instant
  /-- The message that has been read but not been dealt with, and where it has come from. -/
  inHand : Option (Address × Krpc.Message)

/-- The books of the node. -/
abbrev State.books (s : State) : Transactions := s.node.transactions

/-- What happens at a node without interruption. -/
inductive Event where
  /-- Somebody sends a query. By now `draws` transaction ids have been drawn from `stream` for
  it. -/
  | ask (address : Address) (query : Krpc.Query) (draws : ℕ) (stream : ByteStream)
  /-- A datagram is read. A message that is in hand is lost then, as if it had never come. -/
  | read (source : Address) (data : Bytes)
  /-- The message in hand is dealt with. -/
  | finish
  /-- Whoever waits for a query has a turn. -/
  | turn (number : ℕ)
  /-- Nobody waits for a query any longer: it has been dropped, or it could not be sent. -/
  | abandon (number : ℕ)
  /-- The node is shut down. -/
  | close
  | wait (duration : Duration)
  /-- The node does something else, and becomes `node` in all but its queries. -/
  | work (node : Node)

/-- The state after an event. -/
def Event.run (s : State) : Event → State
  | .ask address query draws stream =>
    { s with node := { s.node with
        transactions := (s.books.begin s.now address query.method draws stream).2.1 } }
  | .read source data =>
    { s with inHand := match Krpc.Message.decode data s.books.method? with
        | .ok message => some (source, message)
        | .error _ => none }
  | .finish =>
    match s.inHand with
    | some (source, message) =>
      { s with node := (s.node.dealWith s.now source message).1, inHand := none }
    | none => s
  | .turn number =>
    { s with node := { s.node with transactions := (s.books.turn s.now number).2.1 } }
  | .abandon number =>
    { s with node := { s.node with transactions := (s.books.abandon number).1 } }
  | .close => { s with node := { s.node with transactions := s.books.close.1 } }
  | .wait duration => { s with now := s.now + duration }
  | .work node => { s with node := { node with transactions := s.books } }

/-- A datagram is taken **at once**: nothing happens between its being read and dealt with. -/
def receive (source : Address) (data : Bytes) : List Event :=
  [.read source data, .finish]

/-- The state after a course of events. -/
def runAll (s : State) (course : List Event) : State :=
  course.foldl Event.run s

@[simp] theorem runAll_nil (s : State) : runAll s [] = s := rfl

@[simp] theorem runAll_append (s : State) (xs ys : List Event) :
    runAll s (xs ++ ys) = runAll (runAll s xs) ys := by
  simp [runAll]

theorem runAll_concat (s : State) (course : List Event) (e : Event) :
    runAll s (course ++ [e]) = e.run (runAll s course) :=
  runAll_append s course [e]

@[simp] theorem runAll_cons (s : State) (e : Event) (course : List Event) :
    runAll s (e :: course) = runAll (e.run s) course := rfl

/-- What is in hand after a datagram has been read. -/
theorem inHand_read_iff {s : State} {source source' : Address} {data : Bytes}
    {message : Krpc.Message} :
    (Event.run s (.read source data)).inHand = some (source', message) ↔
      source' = source ∧ Krpc.Message.decode data s.books.method? = .ok message := by
  rw [Event.run]
  cases Krpc.Message.decode data s.books.method? <;> simp [eq_comm]

/-- A datagram that is taken at once is taken as the node takes it. -/
theorem runAll_receive (s : State) (source : Address) (data : Bytes) :
    runAll s (receive source data) =
      { s with node := (s.node.receive s.now source data).1, inHand := none } := by
  rw [receive, runAll_cons, runAll_cons, runAll_nil, Event.run, Node.receive]
  cases Krpc.Message.decode data s.books.method? <;> rfl

/-- A node that has not sent any query yet. -/
def start (node : Node) (now : Instant) : State :=
  ⟨{ node with transactions := .create node.settings }, now, none⟩

/-- In a course from `s`, an event **occurs** that `P` holds of at its moment. -/
def Occurs (s : State) (course : List Event) (P : State → Event → Prop) : Prop :=
  ∃ before e, before ++ [e] <+: course ∧ P (runAll s before) e

@[simp] theorem occurs_nil (s : State) (P : State → Event → Prop) : ¬ Occurs s [] P := by
  simp [Occurs]

/-- What occurs in a course that is one event longer. -/
theorem occurs_concat_iff {s : State} {course : List Event} {e : Event}
    {P : State → Event → Prop} :
    Occurs s (course ++ [e]) P ↔ Occurs s course P ∨ P (runAll s course) e := by
  constructor
  · rintro ⟨before, e', hinit, hP⟩
    obtain hwhole | hinit := List.prefix_concat_iff.mp hinit
    · obtain ⟨rfl, hlast⟩ := List.append_inj' hwhole rfl
      obtain rfl : e' = e := List.singleton_inj.mp hlast
      exact .inr hP
    · exact .inl ⟨before, e', hinit, hP⟩
  · rintro (⟨before, e', hinit, hP⟩ | hP)
    · exact ⟨before, e', hinit.trans (List.prefix_append _ _), hP⟩
    · exact ⟨course, e, List.prefix_rfl, hP⟩

/-! ### What events do to the books -/

/-- A message that is not an answer leaves the books alone; an answer is taken. -/
theorem books_dealWith (node : Node) (now : Instant) (source : Address) (message : Krpc.Message) :
    (∃ reply, message.body.reply? = some reply ∧
        ((node.dealWith now source message).1.transactions,
          (node.dealWith now source message).2.completed) =
          node.transactions.complete now source message.transaction reply) ∨
      message.body.reply? = none ∧
        (node.dealWith now source message).1.transactions = node.transactions ∧
        (node.dealWith now source message).2.completed = none := by
  obtain ⟨transaction, ⟨sender, query⟩ | response | error⟩ := message
  · exact .inr ⟨rfl, rfl, rfl⟩
  · exact .inl ⟨_, rfl, rfl⟩
  · exact .inl ⟨_, rfl, rfl⟩

/-- The event **asks** a question: a query with that number is begun under that transaction id. -/
def Asks (s : State) (e : Event) (address : Address) (query : Krpc.Query) (number : ℕ)
    (transaction : Bytes) : Prop :=
  ∃ draws stream, e = .ask address query draws stream ∧
    (s.books.begin s.now address query.method draws stream).1 = some (.ok (number, transaction))

/-- The event **ends** an open query: it has its turn and does not go on waiting, or it is
abandoned. -/
def Ends (s : State) (e : Event) (q : OpenQuery) : Prop :=
  q ∈ s.books.openQueries ∧
    (e = .turn q.number ∧ (s.books.verdict s.now q).isSome ∨ e = .abandon q.number)

/-- The event **answers** an entry: a message is dealt with in time that has come from the address
that was asked and has been read as a reply under the entry's transaction id. -/
def Answers (s : State) (e : Event) (transaction : Bytes) (entry : PendingQuery) (reply : Reply) :
    Prop :=
  s.now ≤ entry.deadline ∧ e = .finish ∧
    ∃ body, s.inHand = some (entry.address, ⟨transaction, body⟩) ∧ body.reply? = some reply

/-- What an event does to the books of a node. -/
inductive Effect (s : State) : Event → Transactions → Prop
  | none {e : Event} : Effect s e s.books
  | entered {e : Event} {address : Address} {query : Krpc.Query} {transaction : Bytes}
      (asks : Asks s e address query s.books.next transaction)
      (running : s.books.closed = false) (free : transaction ∉ s.books.ids) :
      Effect s e (s.books.enter transaction s.now address query.method)
  | answered {e : Event} {transaction : Bytes} {entry : PendingQuery} {reply : Reply}
      (pending : (transaction, entry) ∈ s.books.pending)
      (answers : Answers s e transaction entry reply) :
      Effect s e (s.books.answered transaction entry.number reply)
  | ended {e : Event} {q : OpenQuery} (ends : Ends s e q) : Effect s e (s.books.conclude q).1
  | closed (running : s.books.closed = false) : Effect s .close s.books.close.1

/-- By the method that was called under a transaction id, a datagram is read as it is by the
books. -/
theorem decode_books_iff {t : Transactions} (h : t.Sound) {data transaction : Bytes}
    {body : Krpc.Body} {entry : PendingQuery} (pending : (transaction, entry) ∈ t.pending) :
    Krpc.Message.decode data t.method? = .ok ⟨transaction, body⟩ ↔
      Krpc.Message.decode data (fun _ => some entry.method) = .ok ⟨transaction, body⟩ := by
  have hmethod : t.method? transaction = some entry.method := by
    simp [Transactions.method?, h.lookup_iff.mpr pending]
  exact ⟨Krpc.Message.decode_congr hmethod, Krpc.Message.decode_congr hmethod.symm⟩

theorem effect_ask (s : State) (address : Address) (query : Krpc.Query) (draws : ℕ)
    (stream : ByteStream) : Effect s (.ask address query draws stream)
      (s.books.begin s.now address query.method draws stream).2.1 := by
  have begun := s.books.begin_begun s.now address query.method draws stream
  generalize hresult : (s.books.begin s.now address query.method draws stream).1 = result at begun
  generalize (s.books.begin s.now address query.method draws stream).2.1 = t at begun ⊢
  cases begun with
  | closed | full | drawing => exact .none
  | entered running room first => exact .entered ⟨draws, stream, rfl, hresult⟩ running first.1

theorem effect_finish {s : State} (h : s.books.Sound) : Effect s .finish (Event.finish.run s).books := by
  rw [Event.run]
  split
  · next source message inHand =>
      have hbooks := books_dealWith s.node s.now source message
      rw [State.books]
      generalize s.node.dealWith s.now source message = result at hbooks ⊢
      obtain ⟨reply, isReply, htaken⟩ | ⟨-, hsame, -⟩ := hbooks
      · have hfst : result.1.transactions =
            (s.books.complete s.now source message.transaction reply).1 := congrArg Prod.fst htaken
        rw [hfst]
        obtain ⟨entry, pending, address, inTime, hcomplete⟩ | ⟨hcomplete, -⟩ :=
          h.complete_cases s.now source message.transaction reply
        · rw [hcomplete]
          subst address
          exact .answered pending ⟨inTime, rfl, message.body, inHand, isReply⟩
        · rw [hcomplete]
          exact .none
      · rw [hsame]
        exact .none
  · exact .none

theorem effect_turn {s : State} (h : s.books.Sound) (number : ℕ) :
    Effect s (.turn number) (s.books.turn s.now number).2.1 := by
  obtain ⟨-, hsame, -⟩ | ⟨q, isOpen, rfl, reply, hverdict, -, hended⟩ := h.turn_cases s.now number
  · rw [hsame]
    exact .none
  · rw [hended]
    exact .ended ⟨isOpen, .inl ⟨rfl, by rw [hverdict]; rfl⟩⟩

theorem effect_abandon {s : State} (h : s.books.Sound) (number : ℕ) :
    Effect s (.abandon number) (s.books.abandon number).1 := by
  obtain ⟨hsame, -⟩ | ⟨q, isOpen, rfl, hended⟩ := h.abandon_cases number
  · rw [hsame]
    exact .none
  · rw [hended]
    exact .ended ⟨isOpen, .inr rfl⟩

theorem effect_close (s : State) : Effect s .close s.books.close.1 := by
  cases hrunning : s.books.closed with
  | true =>
      have hsame : s.books.close.1 = s.books := by simp [Transactions.close, hrunning]
      rw [hsame]
      exact .none
  | false => exact .closed hrunning

/-- **An event does one of these things to the books**, if they are sound. -/
theorem Event.effect {s : State} (h : s.books.Sound) (e : Event) :
    Effect s e (e.run s).books := by
  cases e with
  | ask address query draws stream => exact effect_ask s address query draws stream
  | read source data => exact .none
  | finish => exact effect_finish h
  | turn number => exact effect_turn h number
  | abandon number => exact effect_abandon h number
  | close => exact effect_close s
  | wait duration => exact .none
  | work node => exact .none

/-- An event keeps the books sound. -/
theorem sound_run {s : State} (h : s.books.Sound) (e : Event) : (e.run s).books.Sound := by
  have effect := Event.effect h e
  generalize (e.run s).books = t at effect ⊢
  cases effect with
  | none => exact h
  | entered asks running free => exact h.enter running free
  | answered pending answers => exact h.answered _ pending
  | ended ends => exact h.conclude ends.1
  | closed running => exact h.close

/-- A question that is asked is entered. -/
theorem Asks.books_eq {s : State} {e : Event} {address : Address} {query : Krpc.Query}
    {number : ℕ} {transaction : Bytes} (asks : Asks s e address query number transaction) :
    number = s.books.next ∧ transaction ∉ s.books.ids ∧ s.books.closed = false ∧
      (e.run s).books = s.books.enter transaction s.now address query.method := by
  obtain ⟨draws, stream, rfl, hresult⟩ := asks
  have begun := s.books.begin_begun s.now address query.method draws stream
  have hbooks : (Event.run s (.ask address query draws stream)).books =
      (s.books.begin s.now address query.method draws stream).2.1 := rfl
  rw [hbooks]
  rw [hresult] at begun
  generalize (s.books.begin s.now address query.method draws stream).2.1 = t at begun ⊢
  cases begun with
  | entered running room first => exact ⟨rfl, first.1, running, rfl⟩

/-- An answer removes the entry and is handed over to its query. -/
theorem Answers.books_eq {s : State} (h : s.books.Sound) {e : Event} {transaction : Bytes}
    {entry : PendingQuery} {reply : Reply} (pending : (transaction, entry) ∈ s.books.pending)
    (answers : Answers s e transaction entry reply) :
    (e.run s).books = s.books.answered transaction entry.number reply := by
  obtain ⟨inTime, rfl, body, inHand, isReply⟩ := answers
  rw [Event.run, inHand]
  dsimp only
  obtain ⟨reply', isReply', htaken⟩ | ⟨hnone, -, -⟩ :=
    books_dealWith s.node s.now entry.address ⟨transaction, body⟩
  · obtain rfl := Option.some.inj (isReply.symm.trans isReply')
    obtain ⟨entry', pending', -, -, hcomplete⟩ | ⟨-, hmismatch⟩ :=
      h.complete_cases s.now entry.address transaction reply
    · rw [h.entry_ext pending' pending] at hcomplete
      exact congrArg Prod.fst (htaken.trans hcomplete)
    · exact absurd ⟨rfl, inTime⟩ (hmismatch entry pending)
  · cases isReply.symm.trans hnone

/-- The end of a query removes it, and whatever entry stands under its transaction id. -/
theorem Ends.books_eq {s : State} (h : s.books.Sound) {e : Event} {q : OpenQuery}
    (ends : Ends s e q) : (e.run s).books = (s.books.conclude q).1 := by
  obtain ⟨isOpen, ⟨rfl, hverdict⟩ | rfl⟩ := ends
  · obtain ⟨-, -, hnone⟩ | ⟨q', isOpen', hnumber, -, -, -, hended⟩ := h.turn_cases s.now q.number
    · simp [hnone q isOpen rfl] at hverdict
    · rw [← h.open_ext isOpen' isOpen hnumber]
      rw [← hnumber] at hended
      exact hended
  · obtain ⟨-, hnone⟩ | ⟨q', isOpen', hnumber, hended⟩ := h.abandon_cases q.number
    · exact absurd rfl (hnone q isOpen)
    · rw [← h.open_ext isOpen' isOpen hnumber]
      rw [← hnumber] at hended
      exact hended

/-- A course of events keeps the books sound. -/
theorem sound_runAll_of_sound {s : State} (h : s.books.Sound) (course : List Event) :
    (runAll s course).books.Sound := by
  induction course generalizing s with
  | nil => exact h
  | cons e course ih => exact ih (sound_run h e)

/-- **The books are sound at every moment** of every course of events. -/
theorem sound_runAll (node : Node) (now : Instant) (course : List Event) :
    (runAll (start node now) course).books.Sound :=
  sound_runAll_of_sound (Transactions.sound_create node.settings) course

/-! ### What the books tell of the past -/

/-- Numbers are not given back. -/
theorem next_le_run {s : State} (h : s.books.Sound) (e : Event) :
    s.books.next ≤ (e.run s).books.next := by
  have effect := Event.effect h e
  generalize (e.run s).books = t at effect ⊢
  cases effect with
  | none | answered | ended => exact Nat.le_refl _
  | entered => exact Nat.le_succ _
  | closed running => exact Nat.le_of_eq (by rw [Transactions.close_eq running])

theorem next_le_runAll {s : State} (h : s.books.Sound) (course : List Event) :
    s.books.next ≤ (runAll s course).books.next := by
  induction course generalizing s with
  | nil => exact Nat.le_refl _
  | cons e course ih => exact Nat.le_trans (next_le_run h e) (ih (sound_run h e))

/-- A query that is open after an event was open before, or has just been begun. -/
theorem mem_open_of_run {s : State} (h : s.books.Sound) {e : Event} {q : OpenQuery}
    (isOpen : q ∈ (e.run s).books.openQueries) :
    (∃ q₀ ∈ s.books.openQueries, q₀.number = q.number ∧ q₀.transaction = q.transaction ∧
        q₀.deadline = q.deadline ∧ (q.reply = none → q₀.reply = none)) ∨
      ∃ address query, Asks s e address query q.number q.transaction ∧
        q.number = s.books.next ∧ q.deadline = s.now + s.books.timeout ∧ q.reply = none := by
  have effect := Event.effect h e
  generalize (e.run s).books = t at effect isOpen
  cases effect with
  | none => exact .inl ⟨q, isOpen, rfl, rfl, rfl, id⟩
  | entered asks running free =>
      obtain isOpen | rfl := Transactions.mem_openQueries_enter_iff.mp isOpen
      · exact .inl ⟨q, isOpen, rfl, rfl, rfl, id⟩
      · exact .inr ⟨_, _, asks, rfl, rfl, rfl⟩
  | answered pending answers =>
      obtain ⟨isOpen, -⟩ | ⟨q₀, isOpen₀, -, rfl⟩ :=
        Transactions.mem_openQueries_answered_iff.mp isOpen
      · exact .inl ⟨q, isOpen, rfl, rfl, rfl, id⟩
      · exact .inl ⟨q₀, isOpen₀, rfl, rfl, rfl, nofun⟩
  | ended ends =>
      have isOpen := (Transactions.mem_openQueries_conclude_iff.mp isOpen).1
      exact .inl ⟨q, isOpen, rfl, rfl, rfl, id⟩
  | closed running =>
      obtain ⟨isOpen, -⟩ | ⟨q₀, isOpen₀, -, rfl⟩ :=
        (Transactions.mem_openQueries_close_iff running).mp isOpen
      · exact .inl ⟨q, isOpen, rfl, rfl, rfl, id⟩
      · exact .inl ⟨q₀, isOpen₀, rfl, rfl, rfl, nofun⟩

/-- An entry after an event was there before, or is that of a query that has just been begun. -/
theorem mem_pending_of_run {s : State} (h : s.books.Sound) {e : Event} {transaction : Bytes}
    {entry : PendingQuery} (pending : (transaction, entry) ∈ (e.run s).books.pending) :
    (transaction, entry) ∈ s.books.pending ∨ entry.number = s.books.next := by
  have effect := Event.effect h e
  generalize (e.run s).books = t at effect pending
  cases effect with
  | none => exact .inl pending
  | entered asks running free =>
      obtain pending | ⟨-, rfl⟩ := Transactions.mem_pending_enter_iff.mp pending
      · exact .inl pending
      · exact .inr rfl
  | answered => exact .inl (Transactions.mem_pending_answered_iff.mp pending).1
  | ended ends => exact .inl (Transactions.mem_pending_conclude_iff.mp pending).1
  | closed running =>
      rw [Transactions.close_eq running] at pending
      cases pending

/-- What queries have been told to wait does not change. -/
theorem timeout_run {s : State} (h : s.books.Sound) (e : Event) :
    (e.run s).books.timeout = s.books.timeout := by
  have effect := Event.effect h e
  generalize (e.run s).books = t at effect ⊢
  cases effect with
  | none | entered | answered | ended => rfl
  | closed running => rw [Transactions.close_eq running]

/-- A query that had been begun before an event and is open after it was open before. -/
theorem mem_numbers_of_run {s : State} (h : s.books.Sound) {e : Event} {number : ℕ}
    (hmem : number ∈ (e.run s).books.openQueries.map OpenQuery.number)
    (begun : number < s.books.next) : number ∈ s.books.openQueries.map OpenQuery.number := by
  obtain ⟨q, isOpen, rfl⟩ := List.mem_map.mp hmem
  obtain ⟨q₀, isOpen₀, hnumber, -⟩ | ⟨-, -, -, hnew, -⟩ := mem_open_of_run h isOpen
  · exact List.mem_map.mpr ⟨q₀, isOpen₀, hnumber⟩
  · exact absurd hnew (Nat.ne_of_lt begun)

/-- A query stays open until it has its turn or is abandoned. -/
theorem mem_numbers_run {s : State} (h : s.books.Sound) {e : Event} {number : ℕ}
    (hmem : number ∈ s.books.openQueries.map OpenQuery.number) (noTurn : e ≠ .turn number)
    (kept : e ≠ .abandon number) : number ∈ (e.run s).books.openQueries.map OpenQuery.number := by
  have effect := Event.effect h e
  generalize (e.run s).books = t at effect ⊢
  cases effect with
  | none => exact hmem
  | entered =>
      rw [Transactions.enter, List.map_append]
      exact List.mem_append_left _ hmem
  | answered =>
      rw [Transactions.numbers_answered]
      exact hmem
  | ended ends =>
      obtain ⟨q, isOpen, rfl⟩ := List.mem_map.mp hmem
      refine List.mem_map.mpr ⟨q, Transactions.mem_openQueries_conclude_iff.mpr ⟨isOpen, ?_⟩, rfl⟩
      intro hnumber
      rw [hnumber] at noTurn kept
      exact ends.2.elim (fun hturn => noTurn hturn.1) kept
  | closed running =>
      rw [Transactions.close_eq running, Transactions.map_number_handed]
      exact hmem

/-- An entry of a query that had been begun before a course was there before it. -/
theorem mem_pending_of_runAll {s : State} (h : s.books.Sound) {course : List Event}
    {transaction : Bytes} {entry : PendingQuery}
    (pending : (transaction, entry) ∈ (runAll s course).books.pending)
    (begun : entry.number < s.books.next) : (transaction, entry) ∈ s.books.pending := by
  induction course generalizing s with
  | nil => exact pending
  | cons e course ih =>
      have before := ih (sound_run h e) pending (Nat.lt_of_lt_of_le begun (next_le_run h e))
      exact (mem_pending_of_run h before).resolve_right (Nat.ne_of_lt begun)

/-- A query that had been begun before a course and is open after it was open before it. -/
theorem mem_open_of_runAll {s : State} (h : s.books.Sound) {course : List Event} {q : OpenQuery}
    (isOpen : q ∈ (runAll s course).books.openQueries) (begun : q.number < s.books.next) :
    ∃ q₀ ∈ s.books.openQueries, q₀.number = q.number ∧ q₀.transaction = q.transaction ∧
      q₀.deadline = q.deadline ∧ (q.reply = none → q₀.reply = none) := by
  induction course generalizing s with
  | nil => exact ⟨q, isOpen, rfl, rfl, rfl, id⟩
  | cons e course ih =>
      obtain ⟨q₁, isOpen₁, hnumber₁, hid₁, hdeadline₁, hreply₁⟩ :=
        ih (sound_run h e) isOpen (Nat.lt_of_lt_of_le begun (next_le_run h e))
      obtain ⟨q₀, isOpen₀, hnumber₀, hid₀, hdeadline₀, hreply₀⟩ | ⟨-, -, -, hnew, -⟩ :=
        mem_open_of_run h isOpen₁
      · exact ⟨q₀, isOpen₀, hnumber₀.trans hnumber₁, hid₀.trans hid₁,
          hdeadline₀.trans hdeadline₁, hreply₀ ∘ hreply₁⟩
      · exact absurd (hnumber₁.symm.trans hnew) (Nat.ne_of_lt begun)

/-- Queries wait as long as the settings say. -/
theorem timeout_runAll (node : Node) (now : Instant) (course : List Event) :
    (runAll (start node now) course).books.timeout = node.settings.queryTimeout := by
  induction course using List.reverseRecOn with
  | nil => rfl
  | append_singleton course e ih =>
      rw [runAll_concat, timeout_run (sound_runAll node now course), ih]

/-! ### What becomes of a question -/

section Asked

variable {s : State} {e : Event} {address : Address} {query : Krpc.Query} {number : ℕ}
  {transaction : Bytes} {later : List Event}

/-- The entry of a query says what has been asked, as long as there is one. -/
theorem Asks.entry_eq (h : s.books.Sound) (asks : Asks s e address query number transaction)
    {transaction' : Bytes} {entry : PendingQuery}
    (pending : (transaction', entry) ∈ (runAll (e.run s) later).books.pending)
    (hnumber : entry.number = number) :
    transaction' = transaction ∧
      entry = ⟨number, query.method, address, s.now + s.books.timeout⟩ := by
  obtain ⟨rfl, -, -, hbooks⟩ := asks.books_eq
  have begun : entry.number < (e.run s).books.next := by
    rw [hnumber, hbooks]
    exact Nat.lt_succ_self _
  have pending := mem_pending_of_runAll (sound_run h e) pending begun
  rw [hbooks] at pending
  obtain pending | hnew := Transactions.mem_pending_enter_iff.mp pending
  · obtain ⟨q, isOpen, hq, -⟩ := h.entry_open _ _ pending
    exact absurd (hq.trans hnumber) (Nat.ne_of_lt (h.numbers_lt q isOpen))
  · exact hnew

end Asked

end Traffic

end Mainline
