import Mainline.Proofs.Traffic.Course

/-!
# Where replies come from

Anybody can send a node datagrams: late ones, forged ones, the same one twice. A query ends with a
reply only if that reply has come from the address that was asked, under the id that was asked
under, and has been dealt with in time. This module says which datagram *decided* the query, that
is, found it open and without a reply and left it with one when it was dealt with.

What the reply says need not fit the question. A response is read by the method of the query that
waits under its id at that moment. If that query ends before the response is dealt with, and another
one is sent to the same address under the same id, the response is handed over to the other one.

## Main results

* `exists_read_of_inHand`: what is in hand has been read before.
* `decides_finish_iff`: the messages that decide a query.
* `Asks.origin`: a query that has been handed a reply was decided by a message that brought it.
* `Asks.fits_or_read_before`: a response fits the question, or was read before it was asked.
* `decides_unique`: a query is decided once.
* `replies_have_origins`: where replies come from, and when they fit the question.
* `pong_for_find_node`: a query for contacts is answered with a pong.
-/

namespace Mainline.Traffic

variable {s : State} {e : Event} {number : ℕ} {reply : Reply}

/-- The event **decides** a query: it finds it open and without a reply and leaves it with one. -/
def Decides (s : State) (e : Event) (number : ℕ) (reply : Reply) : Prop :=
  (∃ q ∈ s.books.openQueries, q.number = number ∧ q.reply = none) ∧
    ∃ q ∈ (e.run s).books.openQueries, q.number = number ∧ q.reply = some reply

/-- What an event hands to a query, it brings as an answer to the query's entry, or it is the
shutdown of the node. -/
theorem handed_of_run (h : s.books.Sound) {q : OpenQuery}
    (isOpen : q ∈ (e.run s).books.openQueries) (handed : q.reply = some reply) :
    q ∈ s.books.openQueries ∨ (e = .close ∧ reply = .error .shutdown) ∨
      ∃ transaction entry, (transaction, entry) ∈ s.books.pending ∧ entry.number = q.number ∧
        Answers s e transaction entry reply := by
  have effect := Event.effect h e
  generalize (e.run s).books = t at effect isOpen
  cases effect with
  | none => exact .inl isOpen
  | entered asks running free =>
      obtain isOpen | rfl := Transactions.mem_openQueries_enter_iff.mp isOpen
      · exact .inl isOpen
      · cases handed
  | answered pending answers =>
      obtain ⟨isOpen, -⟩ | ⟨q₀, -, hnumber, rfl⟩ :=
        Transactions.mem_openQueries_answered_iff.mp isOpen
      · exact .inl isOpen
      · cases handed
        exact .inr (.inr ⟨_, _, pending, hnumber.symm, answers⟩)
  | ended ends => exact .inl (Transactions.mem_openQueries_conclude_iff.mp isOpen).1
  | closed running =>
      obtain ⟨isOpen, -⟩ | ⟨q₀, -, -, rfl⟩ :=
        (Transactions.mem_openQueries_close_iff running).mp isOpen
      · exact .inl isOpen
      · cases handed
        exact .inr (.inl ⟨rfl, rfl⟩)

/-- An answer to its entry decides a query. -/
theorem Answers.decides (h : s.books.Sound) {transaction : Bytes} {entry : PendingQuery}
    (pending : (transaction, entry) ∈ s.books.pending)
    (answers : Answers s e transaction entry reply) : Decides s e entry.number reply := by
  obtain ⟨q, isOpen, hnumber, -, -, hnone⟩ := h.entry_open _ _ pending
  refine ⟨⟨q, isOpen, hnumber, hnone⟩, { q with reply := some reply }, ?_, hnumber, rfl⟩
  rw [answers.books_eq h pending]
  exact Transactions.mem_openQueries_answered_iff.mpr (.inr ⟨q, isOpen, hnumber, rfl⟩)

/-- **The messages that decide a query** are the answers to its entry. -/
theorem decides_finish_iff (h : s.books.Sound) :
    Decides s .finish number reply ↔
      ∃ transaction entry, (transaction, entry) ∈ s.books.pending ∧ entry.number = number ∧
        Answers s .finish transaction entry reply := by
  constructor
  · rintro ⟨⟨q, isOpen, rfl, hnone⟩, q', isOpen', hnumber, handed⟩
    obtain isOpen' | ⟨⟨⟩, -⟩ | ⟨transaction, entry, pending, hentry, answers⟩ :=
      handed_of_run h isOpen' handed
    · rw [h.open_ext isOpen' isOpen hnumber, hnone] at handed
      cases handed
    · exact ⟨transaction, entry, pending, hentry.trans hnumber, answers⟩
  · rintro ⟨transaction, entry, pending, rfl, answers⟩
    exact answers.decides h pending

/-- A message decides at most one query. -/
theorem decided_unique (h : s.books.Sound) {number' : ℕ} {reply' : Reply}
    (hdecides : Decides s .finish number reply) (hdecides' : Decides s .finish number' reply') :
    number = number' ∧ reply = reply' := by
  obtain ⟨transaction, entry, pending, rfl, -, -, body, inHand, isReply⟩ :=
    (decides_finish_iff h).mp hdecides
  obtain ⟨transaction', entry', pending', rfl, -, -, body', inHand', isReply'⟩ :=
    (decides_finish_iff h).mp hdecides'
  obtain ⟨-, hmessage⟩ := Prod.mk.inj (Option.some.inj (inHand.symm.trans inHand'))
  cases hmessage
  obtain rfl := h.entry_ext pending pending'
  exact ⟨rfl, Option.some.inj (isReply.symm.trans isReply')⟩

/-! ### Reading -/

/-- The event is one of the reader's. -/
inductive Event.OfReader : Event → Prop
  | read (source : Address) (data : Bytes) : OfReader (.read source data)
  | finish : OfReader .finish

/-- What is in hand stays there as long as the reader does nothing. -/
theorem inHand_run (h : ¬ e.OfReader) : (e.run s).inHand = s.inHand := by
  cases e with
  | read source data => exact absurd (.read source data) h
  | finish => exact absurd .finish h
  | ask | turn | abandon | close | wait | work => rfl

/-- The datagram that is read behind `before` is **held** behind `upTo`: the reader has not done
anything since. -/
def Held (before : List Event) (source : Address) (data : Bytes) (upTo : List Event) : Prop :=
  ∃ between, upTo = before ++ .read source data :: between ∧ ∀ e ∈ between, ¬ e.OfReader

/-- What the reader has in hand was read, and is still held. -/
theorem exists_read_of_inHand (hs : s.inHand = none) {upTo : List Event} {source : Address}
    {message : Krpc.Message} (inHand : (runAll s upTo).inHand = some (source, message)) :
    ∃ before data, Held before source data upTo ∧
      Krpc.Message.decode data (runAll s before).books.method? = .ok message := by
  induction upTo using List.reverseRecOn with
  | nil => cases hs.symm.trans inHand
  | append_singleton upTo e ih =>
      rw [runAll_concat] at inHand
      by_cases reader : e.OfReader
      · cases reader with
        | read source' data =>
            obtain ⟨rfl, decoded⟩ := inHand_read_iff.mp inHand
            exact ⟨upTo, data, ⟨[], rfl, nofun⟩, decoded⟩
        | finish =>
            rw [Event.run] at inHand
            split at inHand
            · cases inHand
            · next hnone => cases hnone.symm.trans inHand
      · rw [inHand_run reader] at inHand
        obtain ⟨before, data, ⟨between, rfl, quiet⟩, decoded⟩ := ih inHand
        refine ⟨before, data, ⟨between ++ [e], by simp, fun e' he' => ?_⟩, decoded⟩
        obtain he' | he' := List.mem_append.mp he'
        · exact quiet e' he'
        · rwa [List.mem_singleton.mp he']

/-- A datagram is dealt with once. -/
theorem Held.unique {course before upTo upTo' : List Event} {source : Address} {data : Bytes}
    (held : Held before source data upTo) (held' : Held before source data upTo')
    (hinit : upTo ++ [.finish] <+: course) (hinit' : upTo' ++ [.finish] <+: course) :
    upTo = upTo' := by
  -- Behind the reading, the first thing that the reader does is the same for both.
  have hle : ∀ {upTo upTo' : List Event}, Held before source data upTo →
      Held before source data upTo' → upTo ++ [.finish] <+: upTo' ++ [.finish] → upTo = upTo' := by
    rintro _ _ ⟨between, rfl, -⟩ ⟨between', rfl, quiet'⟩ hle
    obtain hwhole | hle := List.prefix_concat_iff.mp hle
    · exact List.append_cancel_right hwhole
    · rw [List.append_assoc, List.prefix_append_right_inj, List.cons_append,
        List.cons_prefix_cons] at hle
      exact absurd .finish (quiet' .finish (hle.2.subset (by simp)))
  obtain h | h := List.prefix_or_prefix_of_prefix hinit hinit'
  · exact hle held held' h
  · exact (hle held' held h).symm

/-- What is held behind an event of somebody else was read after the event or before it. -/
theorem Held.after_or_before {before early late : List Event} {source : Address} {data : Bytes}
    (held : Held before source data (early ++ e :: late)) (other : ¬ e.OfReader) :
    (∃ mid rest, before = early ++ e :: mid ∧ late = mid ++ rest) ∨ before <+: early := by
  obtain ⟨between, hsplit, -⟩ := held
  obtain ⟨mid, hbefore, hlate⟩ | ⟨rest, hearly, -⟩ := List.append_eq_append_iff.mp hsplit
  · cases mid with
    | nil =>
        obtain ⟨rfl, -⟩ := List.cons.inj hlate
        exact absurd (.read source data) other
    | cons e' mid =>
        obtain ⟨rfl, rfl⟩ := List.cons.inj hlate
        exact .inl ⟨mid, _, hbefore, rfl⟩
  · exact .inr ⟨rest, hearly.symm⟩

/-! ### Over a course -/

/-- A query that has been handed a reply has one as long as it is open. -/
theorem handed_of_runAll (h : s.books.Sound) {course : List Event} {q q' : OpenQuery}
    (isOpen : q ∈ s.books.openQueries) (handed : q.reply ≠ none)
    (isOpen' : q' ∈ (runAll s course).books.openQueries) (hnumber : q'.number = q.number) :
    q'.reply ≠ none := by
  intro hnone
  have begun : q'.number < s.books.next := by
    rw [hnumber]
    exact h.numbers_lt q isOpen
  obtain ⟨q₀, isOpen₀, hnumber₀, -, -, hnone₀⟩ := mem_open_of_runAll h isOpen' begun
  obtain rfl := h.open_ext isOpen₀ isOpen (hnumber₀.trans hnumber)
  exact handed (hnone₀ hnone)

variable {node : Node} {now : Instant}

/-- A query that has been decided is not decided later. -/
theorem not_decides_later {before between : List Event} {e' : Event} {reply' : Reply}
    (hdecides : Decides (runAll (start node now) before) e number reply) :
    ¬ Decides (runAll (start node now) (before ++ e :: between)) e' number reply' := by
  rintro ⟨⟨q', isOpen', hnumber', hnone⟩, -⟩
  obtain ⟨-, q, isOpen, hnumber, handed⟩ := hdecides
  rw [runAll_append, runAll_cons] at isOpen'
  refine handed_of_runAll (sound_run (sound_runAll node now before) e) isOpen ?_ isOpen'
    (hnumber'.trans hnumber.symm) hnone
  rw [handed]
  nofun

/-- **A query is decided once.** -/
theorem decides_unique {course before before' : List Event} {e' : Event} {reply' : Reply}
    (hinit : before ++ [e] <+: course) (hinit' : before' ++ [e'] <+: course)
    (hdecides : Decides (runAll (start node now) before) e number reply)
    (hdecides' : Decides (runAll (start node now) before') e' number reply') :
    before ++ [e] = before' ++ [e'] := by
  have hlater : ∀ {before₁ before₂ : List Event} {e₁ e₂ : Event} {r₁ r₂ : Reply},
      Decides (runAll (start node now) before₁) e₁ number r₁ →
      Decides (runAll (start node now) before₂) e₂ number r₂ →
      before₁ ++ [e₁] <+: before₂ ++ [e₂] → before₁ ++ [e₁] = before₂ ++ [e₂] := by
    intro before₁ before₂ e₁ e₂ r₁ r₂ h₁ h₂ hle
    obtain hwhole | ⟨between, rfl⟩ := List.prefix_concat_iff.mp hle
    · exact hwhole
    · rw [List.append_assoc, List.singleton_append] at h₂
      exact absurd h₂ (not_decides_later h₁)
  obtain hle | hle := List.prefix_or_prefix_of_prefix hinit hinit'
  · exact hlater hdecides hdecides' hle
  · exact (hlater hdecides' hdecides hle).symm

section Asked

variable {asked later : List Event} {address : Address} {query : Krpc.Query} {transaction : Bytes}

/-- The event **hands the reply over** to the query, which has been sent to this address under this
id and still waits: the message in hand has come from there, bears the id and says so. -/
structure HandsOver (address : Address) (query : Krpc.Query) (number : ℕ) (transaction : Bytes)
    (deadline : Instant) (reply : Reply) (s : State) (e : Event) : Prop where
  pending : (transaction, ⟨number, query.method, address, deadline⟩) ∈ s.books.pending
  answers : Answers s e transaction ⟨number, query.method, address, deadline⟩ reply

/-- **A query that has been handed a reply**, other than by a shutdown of the node, **was handed it
by a message that has come from where it was sent**. -/
theorem Asks.origin (h : s.books.Sound) (asks : Asks s e address query number transaction)
    (hreply : reply ≠ .error .shutdown) {q : OpenQuery}
    (isOpen : q ∈ (runAll (e.run s) later).books.openQueries) (hnumber : q.number = number)
    (handed : q.reply = some reply) :
    Occurs (e.run s) later
      (HandsOver address query number transaction (s.now + s.books.timeout) reply) := by
  induction later using List.reverseRecOn with
  | nil =>
      obtain ⟨rfl, -, -, hbooks⟩ := asks.books_eq
      rw [runAll_nil, hbooks] at isOpen
      obtain isOpen | rfl := Transactions.mem_openQueries_enter_iff.mp isOpen
      · exact absurd hnumber (Nat.ne_of_lt (h.numbers_lt q isOpen))
      · cases handed
  | append_singleton later e' ih =>
      rw [occurs_concat_iff]
      rw [runAll_concat] at isOpen
      have hlater := sound_runAll_of_sound (sound_run h e) later
      obtain isOpen | ⟨-, hshutdown⟩ | ⟨transaction', entry, pending, hentry, answers⟩ :=
        handed_of_run hlater isOpen handed
      · exact .inl (ih isOpen)
      · exact absurd hshutdown hreply
      · obtain ⟨rfl, rfl⟩ := asks.entry_eq h pending (hentry.trans hnumber)
        exact .inr ⟨pending, answers⟩

/-- A response that is read is one of the method of the query that waits under its id. -/
theorem exists_entry_of_decode (h : s.books.Sound) {data : Bytes} {r : Krpc.Response}
    (decoded : Krpc.Message.decode data s.books.method? = .ok ⟨transaction, .response r⟩) :
    ∃ entry, (transaction, entry) ∈ s.books.pending ∧ entry.method = r.method := by
  have hmethod := (Krpc.Message.ofFields_of_decode decoded).1
  rw [Transactions.method?] at hmethod
  obtain ⟨entry, hentry, hmethod⟩ := Option.map_eq_some_iff.mp hmethod
  exact ⟨entry, h.lookup_iff.mp hentry, hmethod⟩

/-- **A response that is read after the question has been asked is one of its method**, if the query
still waits when the response is dealt with. -/
theorem Asks.method_of_read (h : s.books.Sound)
    (asks : Asks s e address query number transaction) {rest : List Event} {data : Bytes}
    {r : Krpc.Response} (decoded : Krpc.Message.decode data
      (runAll (e.run s) later).books.method? = .ok ⟨transaction, .response r⟩)
    {entry : PendingQuery} (hnumber : entry.number = number)
    (pending : (transaction, entry) ∈ (runAll (runAll (e.run s) later) rest).books.pending) :
    r.method = query.method := by
  have hlater := sound_runAll_of_sound (sound_run h e) later
  have begun : entry.number < (runAll (e.run s) later).books.next := by
    refine Nat.lt_of_lt_of_le ?_ (next_le_runAll (sound_run h e) later)
    obtain ⟨rfl, -, -, hbooks⟩ := asks.books_eq
    rw [hnumber, hbooks]
    exact Nat.lt_succ_self _
  have pending := mem_pending_of_runAll hlater pending begun
  obtain ⟨entry', pending', hmethod⟩ := exists_entry_of_decode hlater decoded
  rw [← hmethod, hlater.entry_ext pending' pending, (asks.entry_eq h pending hnumber).2]

/-- **A response that is handed over fits the question** if it was read after the question had been
asked. If it was read before, it fits another query, whose entry was gone when the question was
asked. -/
theorem Asks.fits_or_read_before
    (asks : Asks (runAll (start node now) asked) e address query number transaction)
    {before : List Event} {source : Address} {data : Bytes} {body : Krpc.Body}
    (held : Held before source data (asked ++ e :: later))
    (decoded : Krpc.Message.decode data (runAll (start node now) before).books.method? =
      .ok ⟨transaction, body⟩)
    {entry : PendingQuery} (hnumber : entry.number = number)
    (pending : (transaction, entry) ∈
      (runAll (start node now) (asked ++ e :: later)).books.pending) :
    (asked ++ [e] <+: before ∧ ∀ r, body = .response r → r.method = query.method) ∨
      before <+: asked ∧ ∀ r, body = .response r →
        ∃ entry, (transaction, entry) ∈ (runAll (start node now) before).books.pending ∧
          entry.method = r.method ∧
          (transaction, entry) ∉ (runAll (start node now) asked).books.pending := by
  have other : ¬ e.OfReader := by
    obtain ⟨draws, stream, rfl, -⟩ := asks
    nofun
  refine (held.after_or_before other).imp ?_ fun early => ⟨early, ?_⟩
  · rintro ⟨mid, rest, rfl, rfl⟩
    refine ⟨⟨mid, by simp⟩, ?_⟩
    rintro r rfl
    rw [runAll_append, runAll_cons] at decoded
    rw [runAll_append, runAll_cons, runAll_append] at pending
    exact asks.method_of_read (sound_runAll node now asked) decoded hnumber pending
  · rintro r rfl
    obtain ⟨entry', pending', hmethod⟩ :=
      exists_entry_of_decode (sound_runAll node now before) decoded
    refine ⟨entry', pending', hmethod, fun still => asks.books_eq.2.1 ?_⟩
    exact List.mem_map_of_mem still

end Asked

/-- **Every reply has an origin.** A query that ends with a response or with the error of another
node has been decided by a message that came from the address that was asked, was dealt with after
the question and no later than the deadline, bears the id that was asked under and says that reply.

If its datagram was read after the question had been asked, too, a response is one of the method
that was called. If it was read before, a response is one of the method of another query, which
waited under the id at that moment and has ended before the question was asked.

Each datagram decides at most one query, and each query is decided once at most. -/
theorem replies_have_origins (node : Node) (now : Instant) :
    (∀ asked e later address query number transaction,
      Asks (runAll (start node now) asked) e address query number transaction →
      ∀ reply : Reply, (∃ r, reply = .ok r) ∨ (∃ error, reply = .error (.remote error)) →
        ((runAll (start node now) (asked ++ e :: later)).books.turn
          (runAll (start node now) (asked ++ e :: later)).now number).1 = some reply →
        ∃ before data upTo body, Held before address data upTo ∧
          asked ++ [e] <+: upTo ∧ upTo ++ [.finish] <+: asked ++ e :: later ∧
          Decides (runAll (start node now) upTo) .finish number reply ∧
          (runAll (start node now) upTo).now ≤
            (runAll (start node now) asked).now + node.settings.queryTimeout ∧
          Krpc.Message.decode data (runAll (start node now) before).books.method? =
            .ok ⟨transaction, body⟩ ∧ body.reply? = some reply ∧
          (asked ++ [e] <+: before ∧ (∀ r, reply = .ok r → r.method = query.method) ∨
            before <+: asked ∧ ∀ r, reply = .ok r →
              ∃ entry, (transaction, entry) ∈ (runAll (start node now) before).books.pending ∧
                entry.method = r.method ∧
                (transaction, entry) ∉ (runAll (start node now) asked).books.pending)) ∧
    (∀ course before source data upTo upTo' number number' reply reply',
      Held before source data upTo → Held before source data upTo' →
      upTo ++ [.finish] <+: course → upTo' ++ [.finish] <+: course →
      Decides (runAll (start node now) upTo) .finish number reply →
      Decides (runAll (start node now) upTo') .finish number' reply' →
      number = number' ∧ reply = reply') ∧
    ∀ course before e reply before' e' reply' number,
      before ++ [e] <+: course → before' ++ [e'] <+: course →
      Decides (runAll (start node now) before) e number reply →
      Decides (runAll (start node now) before') e' number reply' →
      before ++ [e] = before' ++ [e'] := by
  refine ⟨?_, ?_, fun course before e reply before' e' reply' number => decides_unique⟩
  · intro asked e later address query number transaction asks reply hreply hturn
    have h := sound_runAll node now asked
    have hshutdown : reply ≠ .error .shutdown := by
      rintro rfl
      obtain ⟨r, ⟨⟩⟩ | ⟨error, ⟨⟩⟩ := hreply
    have htimeout : reply ≠ .error .timeout := by
      rintro rfl
      obtain ⟨r, ⟨⟩⟩ | ⟨error, ⟨⟩⟩ := hreply
    obtain ⟨q, isOpen, hnumber, handed⟩ :=
      (sound_runAll node now (asked ++ e :: later)).handed_of_turn hturn hshutdown htimeout
    rw [runAll_append, runAll_cons] at isOpen
    obtain ⟨mid, e', hmid, handsOver⟩ := asks.origin h hshutdown isOpen hnumber handed
    rw [timeout_runAll node now asked] at handsOver
    have hrun : runAll (start node now) (asked ++ e :: mid) =
        runAll (e.run (runAll (start node now) asked)) mid := by simp
    obtain ⟨pending, inTime, rfl, body, inHand, isReply⟩ := handsOver
    rw [← hrun] at pending inTime inHand
    obtain ⟨before, data, held, decoded⟩ := exists_read_of_inHand rfl inHand
    refine ⟨before, data, asked ++ e :: mid, body, held, ⟨mid, by simp⟩, by simpa using hmid,
      Answers.decides (sound_runAll node now _) pending ⟨inTime, rfl, body, inHand, isReply⟩,
      inTime, decoded, isReply, ?_⟩
    have isResponse : ∀ r, reply = .ok r → body = .response r := by
      rintro r rfl
      cases body <;> cases isReply
      rfl
    exact (asks.fits_or_read_before held decoded rfl pending).imp
      (fun ⟨after, fits⟩ => ⟨after, fun r heq => fits r (isResponse r heq)⟩)
      fun ⟨early, other⟩ => ⟨early, fun r heq => other r (isResponse r heq)⟩
  · rintro course before source data upTo upTo' number number' reply reply' held held' hinit hinit'
      hdecides hdecides'
    obtain rfl := held.unique held' hinit hinit'
    exact decided_unique (sound_runAll node now upTo) hdecides hdecides'

/-- A pong that comes after the ping, from the address that was asked, is where the reply to the
ping has its origin. -/
theorem pong_has_origin :
    let asked : Address := .v4 ⟨10, 0, 0, 2⟩ 6881
    let node := (Node.create ⟨0⟩ (.v4 ⟨10, 0, 0, 1⟩ 6881) {} 0 ⟨[], 2⟩).1
    let ask : Event := .ask asked .ping 1 ⟨[0, 1], 1⟩
    let pong := (Krpc.Message.mk [0, 1] (.response (.ping ⟨1⟩))).encode
    let reply : Reply := .ok (.ping ⟨1⟩)
    let s := runAll (start node 0) (ask :: receive asked pong)
    (s.books.turn s.now 0).1 = some reply ∧
      ∃ before data upTo, Held before asked data upTo ∧ [ask] <+: upTo ∧
        upTo ++ [.finish] <+: ask :: receive asked pong ∧
        Decides (runAll (start node 0) upTo) .finish 0 reply := by
  intro asked node ask pong reply s
  have asks : Asks (runAll (start node 0) []) ask asked .ping 0 [0, 1] :=
    ⟨1, ⟨[0, 1], 1⟩, rfl, by decide +kernel⟩
  have hturn : (s.books.turn s.now 0).1 = some reply := by decide +kernel
  obtain ⟨before, data, upTo, body, held, after, inside, decides, -⟩ :=
    (replies_have_origins node 0).1 [] ask (receive asked pong) asked .ping 0 [0, 1] asks reply
      (.inl ⟨_, rfl⟩) hturn
  exact ⟨hturn, before, data, upTo, held, after, inside, decides⟩

/-- **A query for contacts is answered with a pong.** A pong is read in the last moment in which a
ping waits under its id. Before it is dealt with the ping ends with a timeout, and a query for
contacts is sent to the same address under the same id. No datagram is read after that, and yet the
query ends with the pong. -/
theorem pong_for_find_node :
    let asked : Address := .v4 ⟨10, 0, 0, 2⟩ 6881
    let node := (Node.create ⟨0⟩ (.v4 ⟨10, 0, 0, 1⟩ 6881) {} 0 ⟨[], 2⟩).1
    let pong := (Krpc.Message.mk [0, 1] (.response (.ping ⟨1⟩))).encode
    let query : Krpc.Query := .findNode ⟨5⟩
    let ask : Event := .ask asked query 1 ⟨[0, 1], 1⟩
    let earlier : List Event := [.ask asked .ping 1 ⟨[0, 1], 1⟩,
      .wait (node.settings.queryTimeout - 1), .read asked pong, .wait 1]
    let timedOut := runAll (start node 0) earlier
    let s := runAll (start node 0) (earlier ++ [.turn 0, ask, .finish])
    (timedOut.books.turn timedOut.now 0).1 = some (.error .timeout) ∧
      Asks (runAll (start node 0) (earlier ++ [.turn 0])) ask asked query 1 [0, 1] ∧
      (s.books.turn s.now 1).1 = some (.ok (.ping ⟨1⟩)) ∧
      (Krpc.Response.ping ⟨1⟩).method ≠ query.method := by
  refine ⟨by decide +kernel, ⟨1, ⟨[0, 1], 1⟩, rfl, ?_⟩, ?_, by decide⟩
  · decide +kernel
  · decide +kernel

end Mainline.Traffic
