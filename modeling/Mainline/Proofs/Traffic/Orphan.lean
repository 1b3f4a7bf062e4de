import Mainline.Proofs.Traffic.Course

/-!
# Queries that lose their entries

A query that ends removes the entry under its transaction id, whoever made it. As long as a query
has its entry nobody else can enter that id, but an answer that is handed over frees the id before
the query ends. If another query is entered under it in between, the end of the first query removes
the entry of the second and so *orphans* it: its answer will be dropped, and it ends with a
shutdown although nobody shut the node down.

## Main results

* `entry_removed_iff`: what removes an entry. Orphaning is the only way that should not be there.
* `lost_runAll_iff`: the queries that wait without an entry are those that have been orphaned.
* `handed_runAll`: a query keeps the reply that it has been handed.
* `delivers_finish_iff`, `delivers_receive_iff`: an answer that comes in time is delivered unless
  the query has been orphaned.
* `reuse_of_orphaned`, `orphans_of_reuse`: where orphans come from.
-/

namespace Mainline.Traffic

open Transactions (Sound)

variable {s : State} {e : Event} {number : ℕ}

/-- The event **orphans** a query: it ends another query whose transaction id is the one that the
query's own entry stands under. -/
def Orphans (s : State) (e : Event) (number : ℕ) : Prop :=
  ∃ transaction entry q, (transaction, entry) ∈ s.books.pending ∧ entry.number = number ∧
    q.transaction = transaction ∧ q.number ≠ number ∧ Ends s e q

/-- The query is open and has been handed nothing, but it has no entry. -/
def Lost (t : Transactions) (number : ℕ) : Prop :=
  ∃ q ∈ t.openQueries, q.number = number ∧ q.reply = none ∧ ¬ t.Waits number

/-! ### What removes an entry -/

/-- **What removes an entry**: an answer, the end of its own query, a shutdown, or the end of
another query that was sent under the same id. -/
theorem entry_removed_iff (h : s.books.Sound) {transaction : Bytes} {entry : PendingQuery}
    (pending : (transaction, entry) ∈ s.books.pending) :
    (transaction, entry) ∉ (e.run s).books.pending ↔
      (∃ reply, Answers s e transaction entry reply) ∨
        (∃ q, q.number = entry.number ∧ Ends s e q) ∨ e = .close ∨ Orphans s e entry.number := by
  constructor
  · intro removed
    have effect := Event.effect h e
    generalize (e.run s).books = t at effect removed
    cases effect with
    | none => exact absurd pending removed
    | entered asks running free =>
        exact absurd (Transactions.mem_pending_enter_iff.mpr (.inl pending)) removed
    | @answered _ transaction' entry' reply pending' answers =>
        obtain rfl : transaction = transaction' := by
          by_contra hne
          exact removed (Transactions.mem_pending_answered_iff.mpr ⟨pending, hne⟩)
        obtain rfl := h.entry_ext pending pending'
        exact .inl ⟨reply, answers⟩
    | @ended _ q ends =>
        have hid : transaction = q.transaction := by
          by_contra hne
          exact removed (Transactions.mem_pending_conclude_iff.mpr ⟨pending, hne⟩)
        by_cases hnumber : q.number = entry.number
        · exact .inr (.inl ⟨q, hnumber, ends⟩)
        · exact .inr (.inr (.inr ⟨transaction, entry, q, pending, rfl, hid.symm, hnumber, ends⟩))
    | closed running => exact .inr (.inr (.inl rfl))
  · rintro (⟨reply, answers⟩ | ⟨q, hnumber, ends⟩ | rfl | ⟨transaction', entry', q, hentry⟩) hmem
    · rw [answers.books_eq h pending] at hmem
      exact (Transactions.mem_pending_answered_iff.mp hmem).2 rfl
    · obtain ⟨q', isOpen', hnumber', hid', -, -⟩ := h.entry_open _ _ pending
      obtain rfl := h.open_ext isOpen' ends.1 (hnumber'.trans hnumber.symm)
      rw [ends.books_eq h, Transactions.mem_pending_conclude_iff] at hmem
      exact hmem.2 hid'.symm
    · cases hrunning : s.books.closed with
      | true =>
          rw [h.closed_empty hrunning] at pending
          cases pending
      | false =>
          have hbooks : (Event.run s .close).books = s.books.close.1 := rfl
          rw [hbooks, Transactions.close_eq hrunning] at hmem
          cases hmem
    · obtain ⟨pending', hnumber', hid, hne, ends⟩ := hentry
      obtain ⟨rfl, rfl⟩ := h.number_ext pending' pending hnumber'
      rw [ends.books_eq h, Transactions.mem_pending_conclude_iff] at hmem
      exact hmem.2 hid.symm

/-! ### Queries without entries -/

/-- A query that loses its entry while it is open does so by being orphaned. -/
theorem lost_of_lost_run (h : s.books.Sound) (hlost : Lost (e.run s).books number) :
    Lost s.books number ∨ Orphans s e number := by
  obtain ⟨q, isOpen, rfl, hreply, hwaits⟩ := hlost
  have effect := Event.effect h e
  generalize (e.run s).books = t at effect isOpen hwaits
  cases effect with
  | none => exact .inl ⟨q, isOpen, rfl, hreply, hwaits⟩
  | entered asks running free =>
      rw [Transactions.waits_enter_iff, not_or] at hwaits
      obtain isOpen | rfl := Transactions.mem_openQueries_enter_iff.mp isOpen
      · exact .inl ⟨q, isOpen, rfl, hreply, hwaits.1⟩
      · exact absurd rfl hwaits.2
  | answered pending answers =>
      rw [h.waits_answered_iff pending] at hwaits
      obtain ⟨isOpen, hne⟩ | ⟨q₀, -, -, rfl⟩ :=
        Transactions.mem_openQueries_answered_iff.mp isOpen
      · exact .inl ⟨q, isOpen, rfl, hreply, fun hw => hwaits ⟨hw, hne⟩⟩
      · cases hreply
  | @ended _ q' ends =>
      obtain ⟨isOpen, hne⟩ := Transactions.mem_openQueries_conclude_iff.mp isOpen
      by_cases hw : s.books.Waits q.number
      · obtain ⟨transaction, entry, pending, hnumber⟩ := hw
        refine .inr ⟨transaction, entry, q', pending, hnumber, ?_, hne.symm, ends⟩
        by_contra hid
        exact hwaits ⟨transaction, entry,
          Transactions.mem_pending_conclude_iff.mpr ⟨pending, Ne.symm hid⟩, hnumber⟩
      · exact .inl ⟨q, isOpen, rfl, hreply, hw⟩
  | closed running =>
      obtain ⟨isOpen, hwaits⟩ | ⟨q₀, -, -, rfl⟩ :=
        (Transactions.mem_openQueries_close_iff running).mp isOpen
      · exact .inl ⟨q, isOpen, rfl, hreply, hwaits⟩
      · cases hreply

/-- A query that is without an entry stays so as long as it is open. -/
theorem lost_run_of_lost (h : s.books.Sound) (hlost : Lost s.books number)
    (isOpen : number ∈ (e.run s).books.openQueries.map OpenQuery.number) :
    Lost (e.run s).books number := by
  obtain ⟨q, isOpen₀, rfl, hreply, hwaits⟩ := hlost
  have effect := Event.effect h e
  generalize (e.run s).books = t at effect isOpen ⊢
  cases effect with
  | none => exact ⟨q, isOpen₀, rfl, hreply, hwaits⟩
  | entered asks running free =>
      refine ⟨q, Transactions.mem_openQueries_enter_iff.mpr (.inl isOpen₀), rfl, hreply, ?_⟩
      rw [Transactions.waits_enter_iff, not_or]
      exact ⟨hwaits, Nat.ne_of_lt (h.numbers_lt q isOpen₀)⟩
  | @answered _ transaction entry reply pending answers =>
      have hne : q.number ≠ entry.number := fun hnumber =>
        hwaits ⟨transaction, entry, pending, hnumber.symm⟩
      refine ⟨q, Transactions.mem_openQueries_answered_iff.mpr (.inl ⟨isOpen₀, hne⟩), rfl, hreply,
        fun hw => hwaits ?_⟩
      exact ((h.waits_answered_iff pending).mp hw).1
  | @ended _ q' ends =>
      obtain ⟨q₁, isOpen₁, hnumber₁⟩ := List.mem_map.mp isOpen
      have hne := (Transactions.mem_openQueries_conclude_iff.mp isOpen₁).2
      exact ⟨q, Transactions.mem_openQueries_conclude_iff.mpr ⟨isOpen₀, hnumber₁ ▸ hne⟩, rfl,
        hreply, fun hw => hwaits (Transactions.waits_of_waits_conclude hw)⟩
  | closed running =>
      exact ⟨q, (Transactions.mem_openQueries_close_iff running).mpr (.inl ⟨isOpen₀, hwaits⟩), rfl,
        hreply, Transactions.not_waits_close running _⟩

/-- A query that is orphaned is open and has been handed nothing, but it is left without an
entry. -/
theorem Orphans.lost_run (h : s.books.Sound) (orphans : Orphans s e number) :
    Lost (e.run s).books number := by
  obtain ⟨transaction, entry, q, pending, rfl, rfl, hne, ends⟩ := orphans
  obtain ⟨q', isOpen', hnumber', -, -, hreply⟩ := h.entry_open _ _ pending
  rw [ends.books_eq h]
  refine ⟨q', Transactions.mem_openQueries_conclude_iff.mpr ⟨isOpen', ?_⟩, hnumber', hreply, ?_⟩
  · rw [hnumber']
    exact hne.symm
  · rintro ⟨transaction', entry', pending', hnumber⟩
    obtain ⟨pending', hid⟩ := Transactions.mem_pending_conclude_iff.mp pending'
    exact hid (h.number_ext pending' pending hnumber).1

/-- The course **orphans** a query if one of its events does. -/
def Orphaned (s : State) (course : List Event) (number : ℕ) : Prop :=
  Occurs s course fun s e => Orphans s e number

theorem orphaned_concat_iff {course : List Event} :
    Orphaned s (course ++ [e]) number ↔
      Orphaned s course number ∨ Orphans (runAll s course) e number :=
  occurs_concat_iff

variable {node : Node} {now : Instant} {course : List Event}

/-- Only queries that have been begun are orphaned. -/
theorem Orphaned.lt_next (orphaned : Orphaned (start node now) course number) :
    number < (runAll (start node now) course).books.next := by
  induction course using List.reverseRecOn with
  | nil => exact absurd orphaned (occurs_nil _ _)
  | append_singleton course e ih =>
      have h := sound_runAll node now course
      have hle := next_le_run h e
      rw [runAll_concat]
      obtain orphaned | ⟨transaction, entry, q, pending, rfl, -⟩ :=
        orphaned_concat_iff.mp orphaned
      · exact Nat.lt_of_lt_of_le (ih orphaned) hle
      · obtain ⟨q', isOpen', hnumber', -⟩ := h.entry_open _ _ pending
        rw [← hnumber']
        exact Nat.lt_of_lt_of_le (h.numbers_lt q' isOpen') hle

/-- **The queries that wait without an entry are those that have been orphaned**, at every moment of
every course. -/
theorem lost_runAll_iff :
    Lost (runAll (start node now) course).books number ↔
      Orphaned (start node now) course number ∧
        number ∈ (runAll (start node now) course).books.openQueries.map OpenQuery.number := by
  induction course using List.reverseRecOn with
  | nil => simp [Orphaned, Lost, start, State.books, Transactions.create]
  | append_singleton course e ih =>
      have h := sound_runAll node now course
      rw [runAll_concat, orphaned_concat_iff]
      constructor
      · intro hlost
        obtain ⟨q, isOpen, hnumber, -, -⟩ := id hlost
        refine ⟨?_, List.mem_map.mpr ⟨q, isOpen, hnumber⟩⟩
        exact (lost_of_lost_run h hlost).imp (fun hlost => (ih.mp hlost).1) id
      · rintro ⟨orphaned | orphans, isOpen⟩
        · refine lost_run_of_lost h (ih.mpr ⟨orphaned, ?_⟩) isOpen
          exact mem_numbers_of_run h isOpen orphaned.lt_next
        · exact orphans.lost_run h

/-! ### Ending with a shutdown -/

/-- No answer is a shutdown. -/
theorem reply?_ne_shutdown (body : Krpc.Body) : body.reply? ≠ some (.error .shutdown) := by
  cases body <;> simp [Krpc.Body.reply?]

/-- A node is closed by being shut down. -/
theorem closed_run_iff (h : s.books.Sound) :
    (e.run s).books.closed = true ↔ s.books.closed = true ∨ e = .close := by
  have effect := Event.effect h e
  constructor
  · intro hclosed
    generalize (e.run s).books = t at effect hclosed
    cases effect with
    | none | entered | answered | ended => exact .inl hclosed
    | closed running => exact .inr rfl
  · rintro (hclosed | rfl)
    · generalize (e.run s).books = t at effect ⊢
      cases effect with
      | none | entered | answered | ended => exact hclosed
      | closed running => rw [Transactions.close_eq running]
    · exact s.books.closed_close

/-- A query that has been handed a shutdown was handed it when the node was shut down. -/
theorem closed_of_handed_shutdown (h : s.books.Sound)
    (hs : ∀ q ∈ s.books.openQueries, q.reply = some (.error .shutdown) → s.books.closed = true) :
    ∀ q ∈ (e.run s).books.openQueries,
      q.reply = some (.error .shutdown) → (e.run s).books.closed = true := by
  intro q isOpen hreply
  rw [closed_run_iff h]
  have effect := Event.effect h e
  generalize (e.run s).books = t at effect isOpen
  cases effect with
  | none => exact .inl (hs q isOpen hreply)
  | entered asks running free =>
      obtain isOpen | rfl := Transactions.mem_openQueries_enter_iff.mp isOpen
      · exact .inl (hs q isOpen hreply)
      · cases hreply
  | answered pending answers =>
      obtain ⟨isOpen, -⟩ | ⟨q₀, -, -, rfl⟩ :=
        Transactions.mem_openQueries_answered_iff.mp isOpen
      · exact .inl (hs q isOpen hreply)
      · obtain ⟨-, -, body, -, isReply⟩ := answers
        exact absurd (isReply.trans hreply) (reply?_ne_shutdown body)
  | ended ends =>
      exact .inl (hs q (Transactions.mem_openQueries_conclude_iff.mp isOpen).1 hreply)
  | closed running => exact .inr rfl

/-- A node is closed exactly if it has been shut down. -/
theorem closed_runAll_iff :
    (runAll (start node now) course).books.closed = true ↔ .close ∈ course := by
  induction course using List.reverseRecOn with
  | nil => simp [start, State.books, Transactions.create]
  | append_singleton course e ih =>
      rw [runAll_concat, closed_run_iff (sound_runAll node now course), ih, List.mem_append,
        List.mem_singleton]
      simp only [eq_comm]

/-- Unless the node is shut down, no query is handed a shutdown. -/
theorem not_handed_shutdown (running : .close ∉ course) :
    ∀ q ∈ (runAll (start node now) course).books.openQueries,
      q.reply ≠ some (.error .shutdown) := by
  suffices h : ∀ q ∈ (runAll (start node now) course).books.openQueries,
      q.reply = some (.error .shutdown) → (runAll (start node now) course).books.closed = true from
    fun q isOpen hreply => running (closed_runAll_iff.mp (h q isOpen hreply))
  clear running
  induction course using List.reverseRecOn with
  | nil => simp [start, State.books, Transactions.create]
  | append_singleton course e ih =>
      rw [runAll_concat]
      exact closed_of_handed_shutdown (sound_runAll node now course) ih

/-- **Unless the node is shut down, the queries that end with a shutdown are those that have been
orphaned.** -/
theorem turn_shutdown_iff (running : .close ∉ course) :
    ((runAll (start node now) course).books.turn (runAll (start node now) course).now number).1 =
        some (.error .shutdown) ↔
      Orphaned (start node now) course number ∧
        number ∈ (runAll (start node now) course).books.openQueries.map OpenQuery.number := by
  rw [(sound_runAll node now course).turn_eq_some_iff, ← lost_runAll_iff]
  refine exists_congr fun q => and_congr_right fun isOpen => and_congr_right fun hnumber => ?_
  have hnot := not_handed_shutdown running q isOpen
  simp [Transactions.verdict_eq_some_iff, hnot, hnumber]

/-- Unless the node is shut down, no query is refused with a shutdown. -/
theorem begin_ne_shutdown (running : .close ∉ course) (address : Address) (method : Krpc.Method)
    (draws : ℕ) (stream : ByteStream) :
    ((runAll (start node now) course).books.begin (runAll (start node now) course).now address
      method draws stream).1 ≠ some (.error .shutdown) :=
  fun hshutdown => running (closed_runAll_iff.mp (Transactions.closed_of_begin_shutdown hshutdown))

/-! ### Being handed an answer -/

/-- Whenever the query has its turn after the events, it ends with the reply. -/
def Delivers (s : State) (events : List Event) (number : ℕ) (reply : Reply) : Prop :=
  ∀ later, .turn number ∉ later → .abandon number ∉ later →
    ((runAll (runAll s events) later).books.turn (runAll (runAll s events) later).now number).1 =
      some reply

/-- An event leaves a query alone that has been handed a reply, unless it ends it. -/
theorem handed_run (h : s.books.Sound) {q : OpenQuery} (isOpen : q ∈ s.books.openQueries)
    (handed : q.reply ≠ none) (noTurn : e ≠ .turn q.number) (kept : e ≠ .abandon q.number) :
    q ∈ (e.run s).books.openQueries := by
  have notWaits : ¬ s.books.Waits q.number := by
    rintro ⟨transaction, entry, pending, hnumber⟩
    obtain ⟨q', isOpen', hnumber', -, -, hreply⟩ := h.entry_open _ _ pending
    obtain rfl := h.open_ext isOpen' isOpen (hnumber'.trans hnumber)
    exact handed hreply
  have effect := Event.effect h e
  generalize (e.run s).books = t at effect ⊢
  cases effect with
  | none => exact isOpen
  | entered => exact Transactions.mem_openQueries_enter_iff.mpr (.inl isOpen)
  | answered pending answers =>
      refine Transactions.mem_openQueries_answered_iff.mpr (.inl ⟨isOpen, fun hnumber => ?_⟩)
      exact notWaits ⟨_, _, pending, hnumber.symm⟩
  | @ended _ q' ends =>
      refine Transactions.mem_openQueries_conclude_iff.mpr ⟨isOpen, fun hnumber => ?_⟩
      rw [hnumber] at noTurn kept
      exact ends.2.elim (fun hturn => noTurn hturn.1) kept
  | closed running =>
      exact (Transactions.mem_openQueries_close_iff running).mpr (.inl ⟨isOpen, notWaits⟩)

/-- **A query keeps the reply that it has been handed**, and ends with it. -/
theorem handed_runAll (h : s.books.Sound) {q : OpenQuery} {reply : Reply}
    (isOpen : q ∈ s.books.openQueries) (handed : q.reply = some reply) {later : List Event}
    (noTurn : .turn q.number ∉ later) (kept : .abandon q.number ∉ later) :
    ((runAll s later).books.turn (runAll s later).now q.number).1 = some reply := by
  induction later generalizing s with
  | nil =>
      refine h.turn_eq_some_iff.mpr ⟨q, isOpen, rfl, ?_⟩
      exact Transactions.verdict_eq_some_iff.mpr (.inl handed)
  | cons e later ih =>
      rw [List.mem_cons, not_or] at noTurn kept
      have hhanded : q.reply ≠ none := by
        rw [handed]
        nofun
      exact ih (sound_run h e) (handed_run h isOpen hhanded (Ne.symm noTurn.1) (Ne.symm kept.1))
        noTurn.2 kept.2

/-- An answer to the entry of a query is delivered to it. -/
theorem Answers.delivers (h : s.books.Sound) {transaction : Bytes} {entry : PendingQuery}
    {reply : Reply} (pending : (transaction, entry) ∈ s.books.pending)
    (answers : Answers s e transaction entry reply) : Delivers s [e] entry.number reply := by
  obtain ⟨q, isOpen, hnumber, -⟩ := h.entry_open _ _ pending
  intro later noTurn kept
  rw [← hnumber] at noTurn kept ⊢
  refine handed_runAll (sound_run h e) (q := { q with reply := some reply }) ?_ rfl noTurn kept
  rw [answers.books_eq h pending]
  exact Transactions.mem_openQueries_answered_iff.mpr (.inr ⟨q, isOpen, hnumber, rfl⟩)

/-- A query that has lost its entry is without one as long as it is neither given a turn nor
abandoned. -/
theorem Lost.persists (h : s.books.Sound) (hlost : Lost s.books number) {events : List Event}
    (noTurn : .turn number ∉ events) (kept : .abandon number ∉ events) :
    Lost (runAll s events).books number := by
  induction events generalizing s with
  | nil => exact hlost
  | cons e events ih =>
      rw [List.mem_cons, not_or] at noTurn kept
      have isOpen : number ∈ s.books.openQueries.map OpenQuery.number := by
        obtain ⟨q, isOpen, hnumber, -⟩ := hlost
        exact List.mem_map.mpr ⟨q, isOpen, hnumber⟩
      have isOpen := mem_numbers_run h isOpen (Ne.symm noTurn.1) (Ne.symm kept.1)
      exact ih (sound_run h e) (lost_run_of_lost h hlost isOpen) noTurn.2 kept.2

/-- Nothing is delivered to a query that has lost its entry. -/
theorem Lost.not_delivers (h : s.books.Sound) (hlost : Lost s.books number) {events : List Event}
    (noTurn : .turn number ∉ events) (kept : .abandon number ∉ events) {reply : Reply}
    (hreply : reply ≠ .error .shutdown) : ¬ Delivers s events number reply := by
  intro delivers
  obtain ⟨q, isOpen, rfl, hnone, hwaits⟩ := hlost.persists h noTurn kept
  have hturn := delivers [] List.not_mem_nil List.not_mem_nil
  have hshutdown : ((runAll s events).books.turn (runAll s events).now q.number).1 =
      some (.error .shutdown) :=
    (sound_runAll_of_sound h events).turn_eq_some_iff.mpr ⟨q, isOpen, rfl,
      Transactions.verdict_eq_some_iff.mpr (.inr ⟨hnone, .inl ⟨hwaits, rfl⟩⟩)⟩
  exact hreply (Option.some.inj (hturn.symm.trans hshutdown))

section Delivery

variable {asked between : List Event} {address : Address} {query : Krpc.Query} {transaction : Bytes}
  {q : OpenQuery} {body : Krpc.Body} {reply : Reply}

/-- **An answer that is dealt with in time is delivered to the query that waits for it, unless the
query has been orphaned.** -/
theorem delivers_finish_iff (hcourse : course = asked ++ e :: between)
    (asks : Asks (runAll (start node now) asked) e address query number transaction)
    (isOpen : q ∈ (runAll (start node now) course).books.openQueries) (hnumber : q.number = number)
    (waiting : q.reply = none)
    (inHand : (runAll (start node now) course).inHand = some (address, ⟨transaction, body⟩))
    (isReply : body.reply? = some reply)
    (inTime : (runAll (start node now) course).now ≤
      (runAll (start node now) asked).now + node.settings.queryTimeout) :
    Delivers (runAll (start node now) course) [.finish] number reply ↔
      ¬ Orphaned (start node now) course number := by
  have h := sound_runAll node now course
  have hmem := List.mem_map.mpr ⟨q, isOpen, hnumber⟩
  by_cases hwaits : (runAll (start node now) course).books.Waits number
  · obtain ⟨transaction', entry, pending, hentry⟩ := hwaits
    have hasked : transaction' = transaction ∧ entry =
        ⟨number, query.method, address, (runAll (start node now) asked).now +
          (runAll (start node now) asked).books.timeout⟩ := by
      rw [hcourse, runAll_append, runAll_cons] at pending
      exact asks.entry_eq (sound_runAll node now asked) pending hentry
    obtain ⟨rfl, hasked⟩ := hasked
    have answers : Answers (runAll (start node now) course) .finish transaction' entry reply := by
      rw [hasked]
      rw [← timeout_runAll node now asked] at inTime
      exact ⟨inTime, rfl, body, inHand, isReply⟩
    have delivers := answers.delivers h pending
    rw [hentry] at delivers
    refine iff_of_true delivers fun orphaned => ?_
    obtain ⟨q', isOpen', rfl, -, hlost⟩ := lost_runAll_iff.mpr ⟨orphaned, hmem⟩
    exact hlost ⟨transaction', entry, pending, hentry⟩
  · have hlost : Lost (runAll (start node now) course).books number :=
      ⟨q, isOpen, hnumber, waiting, hwaits⟩
    refine iff_of_false (hlost.not_delivers h (by simp) (by simp) fun hshutdown => ?_) ?_
    · rw [hshutdown] at isReply
      exact reply?_ne_shutdown body isReply
    · exact not_not.mpr (lost_runAll_iff.mp hlost).1

/-- Reading orphans nobody. -/
theorem orphaned_concat_read_iff (source : Address) (data : Bytes) :
    Orphaned (start node now) (course ++ [.read source data]) number ↔
      Orphaned (start node now) course number := by
  rw [orphaned_concat_iff, or_iff_left]
  rintro ⟨_, _, q, -, -, -, -, -, ⟨other, -⟩ | other⟩ <;> cases other

/-- **A datagram that comes in time, reads as an answer and is taken at once is delivered to the
query that waits for it, unless the query has been orphaned.** -/
theorem delivers_receive_iff (hcourse : course = asked ++ e :: between)
    (asks : Asks (runAll (start node now) asked) e address query number transaction)
    (isOpen : q ∈ (runAll (start node now) course).books.openQueries) (hnumber : q.number = number)
    (waiting : q.reply = none) {data : Bytes}
    (decoded : Krpc.Message.decode data (fun _ => some query.method) = .ok ⟨transaction, body⟩)
    (isReply : body.reply? = some reply)
    (inTime : (runAll (start node now) course).now ≤
      (runAll (start node now) asked).now + node.settings.queryTimeout) :
    Delivers (runAll (start node now) course) (receive address data) number reply ↔
      ¬ Orphaned (start node now) course number := by
  have h := sound_runAll node now course
  by_cases hwaits : (runAll (start node now) course).books.Waits number
  · obtain ⟨transaction', entry, pending, hentry⟩ := hwaits
    have hasked : transaction' = transaction ∧ entry.method = query.method := by
      rw [hcourse, runAll_append, runAll_cons] at pending
      obtain ⟨hid, rfl⟩ := asks.entry_eq (sound_runAll node now asked) pending hentry
      exact ⟨hid, rfl⟩
    obtain ⟨rfl, hmethod⟩ := hasked
    rw [← hmethod, ← decode_books_iff h pending] at decoded
    -- Read now, the answer is in hand.
    have inHand : (runAll (start node now) (course ++ [.read address data])).inHand =
        some (address, ⟨transaction', body⟩) := by
      rw [runAll_concat]
      exact inHand_read_iff.mpr ⟨rfl, decoded⟩
    have hread : course ++ [.read address data] = asked ++ e :: (between ++ [.read address data]) := by
      rw [hcourse, List.append_assoc, List.cons_append]
    have isOpen' : q ∈ (runAll (start node now)
        (course ++ [.read address data])).books.openQueries := by rwa [runAll_concat]
    have delivers := delivers_finish_iff hread asks isOpen' hnumber waiting inHand isReply
      (by rwa [runAll_concat])
    rw [orphaned_concat_read_iff, runAll_concat] at delivers
    exact delivers
  · have hlost : Lost (runAll (start node now) course).books number :=
      ⟨q, isOpen, hnumber, waiting, hwaits⟩
    refine iff_of_false (hlost.not_delivers h ?_ ?_ fun hshutdown => ?_) ?_
    · simp [receive]
    · simp [receive]
    · rw [hshutdown] at isReply
      exact reply?_ne_shutdown body isReply
    · exact not_not.mpr (lost_runAll_iff.mp ⟨q, isOpen, hnumber, waiting, hwaits⟩).1

end Delivery

/-! ### Where orphans come from -/

/-- A question is asked under the id of a query that has not ended yet. -/
def Reuses (s : State) (e : Event) : Prop :=
  ∃ address query number transaction, Asks s e address query number transaction ∧
    ∃ q ∈ s.books.openQueries, q.transaction = transaction

/-- Ids that have not been reused tell the open queries apart. -/
theorem open_ids_ext_run (h : s.books.Sound)
    (hext : ∀ q ∈ s.books.openQueries, ∀ q' ∈ s.books.openQueries,
      q.transaction = q'.transaction → q.number = q'.number)
    (fresh : ¬ Reuses s e) :
    ∀ q ∈ (e.run s).books.openQueries, ∀ q' ∈ (e.run s).books.openQueries,
      q.transaction = q'.transaction → q.number = q'.number := by
  intro q isOpen q' isOpen' hid
  obtain ⟨q₀, isOpen₀, hn₀, hid₀, -⟩ | ⟨address, query, asks, hnew, -⟩ := mem_open_of_run h isOpen
  · obtain ⟨q₁, isOpen₁, hn₁, hid₁, -⟩ | ⟨address, query, asks, hnew, -⟩ :=
      mem_open_of_run h isOpen'
    · rw [← hn₀, ← hn₁]
      exact hext q₀ isOpen₀ q₁ isOpen₁ (by rw [hid₀, hid₁, hid])
    · exact absurd ⟨address, query, _, _, asks, q₀, isOpen₀, hid₀.trans hid⟩ fresh
  · obtain ⟨q₁, isOpen₁, hn₁, hid₁, -⟩ | ⟨-, -, -, hnew', -⟩ := mem_open_of_run h isOpen'
    · exact absurd ⟨address, query, _, _, asks, q₁, isOpen₁, hid₁.trans hid.symm⟩ fresh
    · rw [hnew, hnew']

/-- As long as no id is reused, ids tell the open queries apart. -/
theorem open_ids_ext (fresh : ¬ Occurs (start node now) course Reuses) :
    ∀ q ∈ (runAll (start node now) course).books.openQueries,
      ∀ q' ∈ (runAll (start node now) course).books.openQueries,
        q.transaction = q'.transaction → q.number = q'.number := by
  induction course using List.reverseRecOn with
  | nil => simp [start, State.books, Transactions.create]
  | append_singleton course e ih =>
      rw [occurs_concat_iff, not_or] at fresh
      rw [runAll_concat]
      exact open_ids_ext_run (sound_runAll node now course) (ih fresh.1) fresh.2

/-- **A query is orphaned only if an id has been reused** before. -/
theorem reuse_of_orphaned (orphaned : Orphaned (start node now) course number) :
    Occurs (start node now) course Reuses := by
  induction course using List.reverseRecOn with
  | nil => exact absurd orphaned (occurs_nil _ _)
  | append_singleton course e ih =>
      rw [occurs_concat_iff]
      left
      obtain orphaned | ⟨transaction, entry, q, pending, rfl, hid, hne, ends⟩ :=
        orphaned_concat_iff.mp orphaned
      · exact ih orphaned
      · by_contra fresh
        obtain ⟨q', isOpen', hnumber', hid', -⟩ :=
          (sound_runAll node now course).entry_open _ _ pending
        have hsame := open_ids_ext fresh q ends.1 q' isOpen' (hid.trans hid'.symm)
        exact hne (hsame.trans hnumber')

/-- **Whenever an id is reused, the next event may orphan** the query that has been begun under
it. -/
theorem orphans_of_reuse (h : s.books.Sound) (reuses : Reuses s e) :
    ∃ e', Orphans (e.run s) e' s.books.next := by
  obtain ⟨address, query, number, transaction, asks, q, isOpen, hid⟩ := reuses
  obtain ⟨rfl, -, -, hbooks⟩ := asks.books_eq
  refine ⟨.abandon q.number, transaction,
    ⟨s.books.next, query.method, address, s.now + s.books.timeout⟩, q, ?_, rfl, hid, ?_, ?_,
    .inr rfl⟩
  · rw [hbooks]
    exact Transactions.mem_pending_enter_iff.mpr (.inr ⟨rfl, rfl⟩)
  · exact Nat.ne_of_lt (h.numbers_lt q isOpen)
  · rw [hbooks]
    exact Transactions.mem_openQueries_enter_iff.mpr (.inl isOpen)

/-! ### The fate of queries -/

/-- **Queries are undone by others in one way only**: by being orphaned. At every moment of every
course of events,

* an entry is removed exactly by an answer, the end of its own query, a shutdown or by orphaning;
* unless the node has been shut down, no query is refused with a shutdown, and those that end with
  one are those that have been orphaned;
* an answer that comes in time is delivered to the query that waits for it, unless that has been
  orphaned, whether it has been read before or is taken at once.

No query is orphaned before an id has been reused, and whenever one is, the next event may do
it. -/
theorem undone_only_by_orphaning (node : Node) (now : Instant) (course : List Event) :
    let s := runAll (start node now) course
    (∀ transaction entry e, (transaction, entry) ∈ s.books.pending →
      ((transaction, entry) ∉ (e.run s).books.pending ↔
        (∃ reply, Answers s e transaction entry reply) ∨
          (∃ q, q.number = entry.number ∧ Ends s e q) ∨ e = .close ∨
            Orphans s e entry.number)) ∧
    (.close ∉ course →
      (∀ address method draws stream,
        (s.books.begin s.now address method draws stream).1 ≠ some (.error .shutdown)) ∧
      ∀ number, (s.books.turn s.now number).1 = some (.error .shutdown) ↔
        Orphaned (start node now) course number ∧
          number ∈ s.books.openQueries.map OpenQuery.number) ∧
    (∀ asked e between address query transaction, course = asked ++ e :: between →
      ∀ q ∈ s.books.openQueries, q.reply = none →
        Asks (runAll (start node now) asked) e address query q.number transaction →
      s.now ≤ (runAll (start node now) asked).now + node.settings.queryTimeout →
      ∀ body reply, body.reply? = some reply →
        (s.inHand = some (address, ⟨transaction, body⟩) →
          (Delivers s [.finish] q.number reply ↔
            ¬ Orphaned (start node now) course q.number)) ∧
        ∀ data,
          Krpc.Message.decode data (fun _ => some query.method) = .ok ⟨transaction, body⟩ →
          (Delivers s (receive address data) q.number reply ↔
            ¬ Orphaned (start node now) course q.number)) ∧
    ((∃ number, Orphaned (start node now) course number) →
      Occurs (start node now) course Reuses) ∧
    ∀ e, Reuses s e → ∃ e', Orphans (e.run s) e' s.books.next := by
  have h := sound_runAll node now course
  refine ⟨fun transaction entry e pending => entry_removed_iff h pending, fun running => ?_, ?_,
    fun ⟨number, orphaned⟩ => reuse_of_orphaned orphaned, fun e => orphans_of_reuse h⟩
  · exact ⟨begin_ne_shutdown running, fun number => turn_shutdown_iff running⟩
  · intro asked e between address query transaction hcourse q isOpen waiting asks inTime body reply
      isReply
    exact ⟨fun inHand => delivers_finish_iff hcourse asks isOpen rfl waiting inHand isReply inTime,
      fun data decoded => delivers_receive_iff hcourse asks isOpen rfl waiting decoded isReply inTime⟩

/-- Two queries are sent under one id, the second when the first has been handed its answer but has
not had its turn. The second is answered in time as well, and yet it ends with a shutdown. -/
theorem answered_yet_shut_down :
    let first : Address := .v4 ⟨10, 0, 0, 2⟩ 6881
    let second : Address := .v4 ⟨10, 0, 0, 3⟩ 6881
    let pong (id : Key) := (Krpc.Message.mk [0, 1] (.response (.ping id))).encode
    let course : List Event :=
      .ask first .ping 1 ⟨[0, 1], 1⟩ :: receive first (pong ⟨1⟩) ++
        [.ask second .ping 1 ⟨[0, 1], 1⟩, .turn 0] ++ receive second (pong ⟨2⟩)
    let s := runAll (start (Node.create ⟨0⟩ (.v4 ⟨10, 0, 0, 1⟩ 6881) {} 0 ⟨[], 2⟩).1 0) course
    .close ∉ course ∧ (s.books.turn s.now 1).1 = some (.error .shutdown) := by
  refine ⟨by simp [receive], ?_⟩
  decide +kernel

end Mainline.Traffic
