import Mainline.Proofs.Basic
import Mainline.Transactions

/-!
# The books a node keeps of its queries

A node keeps two lists of its queries: the *entries* of those that wait for an answer, under their
transaction ids, and the *open queries*, those that have not ended. This module says what each
operation does to the two lists, and that they stay consistent with each other
(`Transactions.Sound`): no transaction id is entered twice, and each entry belongs to an open
query that has not been handed anything yet. The converse is not among these laws, and it fails: an
open query may have lost its entry.

## Main results

* `Transactions.drawId_eq_find?`: which transaction id is drawn.
* `Transactions.begin_begun`: the ways of beginning a query.
* `Transactions.verdict_eq_some_iff`: when and how a query ends that has its turn.
* `Transactions.Sound.enter`, `.answered`, `.conclude`, `.close`: the books stay sound.
-/

namespace Mainline

namespace Transactions

/-- The transaction ids of the entries. -/
def ids (t : Transactions) : List Bytes :=
  t.pending.map Prod.fst

/-- A query **waits** as long as it has an entry. -/
def Waits (t : Transactions) (number : ℕ) : Prop :=
  ∃ transaction entry, (transaction, entry) ∈ t.pending ∧ entry.number = number

/-- The books are **sound** if they tell of each query once and each entry is that of an open
query that has not been handed anything. -/
structure Sound (t : Transactions) : Prop where
  ids_nodup : t.ids.Nodup
  numbers_nodup : (t.openQueries.map OpenQuery.number).Nodup
  numbers_lt : ∀ q ∈ t.openQueries, q.number < t.next
  entry_open : ∀ transaction entry, (transaction, entry) ∈ t.pending →
    ∃ q ∈ t.openQueries, q.number = entry.number ∧ q.transaction = transaction ∧
      q.deadline = entry.deadline ∧ q.reply = none
  closed_empty : t.closed = true → t.pending = []

variable {t : Transactions}

/-! ### What sound books tell -/

/-- There is one open query of a number. -/
theorem Sound.open_ext (h : t.Sound) {q q' : OpenQuery} (hq : q ∈ t.openQueries)
    (hq' : q' ∈ t.openQueries) (hnumber : q.number = q'.number) : q = q' :=
  List.inj_on_of_nodup_map h.numbers_nodup hq hq' hnumber

/-- There is one entry under a transaction id. -/
theorem Sound.entry_ext (h : t.Sound) {transaction : Bytes} {e e' : PendingQuery}
    (he : (transaction, e) ∈ t.pending) (he' : (transaction, e') ∈ t.pending) : e = e' :=
  congrArg Prod.snd (List.inj_on_of_nodup_map h.ids_nodup he he' rfl)

/-- There is one entry of a query. -/
theorem Sound.number_ext (h : t.Sound) {transaction transaction' : Bytes} {e e' : PendingQuery}
    (he : (transaction, e) ∈ t.pending) (he' : (transaction', e') ∈ t.pending)
    (hnumber : e.number = e'.number) : transaction = transaction' ∧ e = e' := by
  obtain ⟨q, hq, hqn, hqt, -, -⟩ := h.entry_open _ _ he
  obtain ⟨q', hq', hqn', hqt', -, -⟩ := h.entry_open _ _ he'
  have hsame : q = q' := h.open_ext hq hq' (by rw [hqn, hqn', hnumber])
  have htransaction : transaction = transaction' := by rw [← hqt, ← hqt', hsame]
  subst htransaction
  exact ⟨rfl, h.entry_ext he he'⟩

/-- Looking up a transaction id finds its entry. -/
theorem Sound.lookup_iff (h : t.Sound) {transaction : Bytes} {entry : PendingQuery} :
    t.pending.lookup transaction = some entry ↔ (transaction, entry) ∈ t.pending :=
  lookup_eq_some_iff_mem h.ids_nodup

/-- Looking for a number finds the open query of that number. -/
theorem Sound.find?_iff (h : t.Sound) {number : ℕ} {q : OpenQuery} :
    t.openQueries.find? (·.number == number) = some q ↔ q ∈ t.openQueries ∧ q.number = number := by
  constructor
  · intro hfind
    exact ⟨List.mem_of_find?_eq_some hfind, by simpa using List.find?_some hfind⟩
  · rintro ⟨hq, rfl⟩
    cases hfind : t.openQueries.find? (·.number == q.number) with
    | none => simpa using List.find?_eq_none.mp hfind q hq
    | some q' =>
        have hnumber : q'.number = q.number := by simpa using List.find?_some hfind
        rw [h.open_ext (List.mem_of_find?_eq_some hfind) hq hnumber]

/-! ### Beginning a query -/

/-- The books with a new query in them. -/
def enter (t : Transactions) (transaction : Bytes) (now : Instant) (address : Address)
    (method : Krpc.Method) : Transactions :=
  { t with
    pending := t.pending ++ [(transaction, ⟨t.next, method, address, now + t.timeout⟩)]
    openQueries := t.openQueries ++ [⟨t.next, transaction, now + t.timeout, none⟩]
    next := t.next + 1 }

theorem mem_pending_enter_iff {transaction tid : Bytes} {now : Instant} {address : Address}
    {method : Krpc.Method} {entry : PendingQuery} :
    (tid, entry) ∈ (t.enter transaction now address method).pending ↔
      (tid, entry) ∈ t.pending ∨
        tid = transaction ∧ entry = ⟨t.next, method, address, now + t.timeout⟩ := by
  simp [enter]

theorem mem_openQueries_enter_iff {transaction : Bytes} {now : Instant} {address : Address}
    {method : Krpc.Method} {q : OpenQuery} :
    q ∈ (t.enter transaction now address method).openQueries ↔
      q ∈ t.openQueries ∨ q = ⟨t.next, transaction, now + t.timeout, none⟩ := by
  simp [enter]

/-- A query waits once it has been entered. -/
theorem waits_enter_iff {transaction : Bytes} {now : Instant} {address : Address}
    {method : Krpc.Method} {number : ℕ} :
    (t.enter transaction now address method).Waits number ↔ t.Waits number ∨ number = t.next := by
  constructor
  · rintro ⟨tid, entry, hentry, rfl⟩
    obtain hentry | ⟨-, rfl⟩ := mem_pending_enter_iff.mp hentry
    · exact .inl ⟨tid, entry, hentry, rfl⟩
    · exact .inr rfl
  · rintro (⟨tid, entry, hentry, rfl⟩ | rfl)
    · exact ⟨tid, entry, mem_pending_enter_iff.mpr (.inl hentry), rfl⟩
    · exact ⟨transaction, _, mem_pending_enter_iff.mpr (.inr ⟨rfl, rfl⟩), rfl⟩

/-- A transaction id is pending exactly if it is the id of an entry. -/
theorem isPending_iff (t : Transactions) (transaction : Bytes) :
    t.isPending transaction = true ↔ transaction ∈ t.ids := by
  simp [isPending, ids]

/-- The transaction ids that are drawn first. -/
def drawnIds : ℕ → ByteStream → List Bytes
  | 0, _ => []
  | draws + 1, stream => (stream.take idLength).1 :: drawnIds draws (stream.take idLength).2

/-- An id that is drawn has two octets. -/
theorem length_of_mem_drawnIds {draws : ℕ} {stream : ByteStream} {transaction : Bytes}
    (h : transaction ∈ drawnIds draws stream) : transaction.length = idLength := by
  induction draws generalizing stream with
  | zero => cases h
  | succ draws ih =>
      obtain rfl | h := List.mem_cons.mp h
      · exact stream.take_length idLength
      · exact ih h

/-- **The first free id is taken** of those that are drawn. -/
theorem drawId_eq_find? (t : Transactions) (draws : ℕ) (stream : ByteStream) :
    (t.drawId draws stream).1 = (drawnIds draws stream).find? fun id => !t.isPending id := by
  induction draws generalizing stream with
  | zero => rfl
  | succ draws ih =>
      rw [drawId, drawnIds, List.find?_cons]
      dsimp only
      cases t.isPending (stream.take idLength).1 with
      | true => exact ih _
      | false => rfl

/-- The id is the **first free one** of those that are drawn. -/
def FirstFree (t : Transactions) (draws : ℕ) (stream : ByteStream) (transaction : Bytes) : Prop :=
  transaction ∉ t.ids ∧ ∃ taken rest, drawnIds draws stream = taken ++ transaction :: rest ∧
    ∀ id ∈ taken, id ∈ t.ids

theorem mem_drawnIds_of_firstFree {draws : ℕ} {stream : ByteStream} {transaction : Bytes}
    (first : t.FirstFree draws stream transaction) : transaction ∈ drawnIds draws stream := by
  obtain ⟨-, taken, rest, hdrawn, -⟩ := first
  rw [hdrawn]
  exact List.mem_append_right taken List.mem_cons_self

/-- Drawing ends with the first free id that is drawn. -/
theorem drawId_eq_some_iff {draws : ℕ} {stream : ByteStream} {transaction : Bytes} :
    (t.drawId draws stream).1 = some transaction ↔ t.FirstFree draws stream transaction := by
  rw [drawId_eq_find?, List.find?_eq_some_iff_append]
  simp [FirstFree, ← isPending_iff]

/-- Drawing goes on as long as all ids that have been drawn are taken. -/
theorem drawId_eq_none_iff {draws : ℕ} {stream : ByteStream} :
    (t.drawId draws stream).1 = none ↔ ∀ id ∈ drawnIds draws stream, id ∈ t.ids := by
  rw [drawId_eq_find?, List.find?_eq_none]
  simp [← isPending_iff]

/-- What has come of beginning a query. -/
inductive Begun (t : Transactions) (now : Instant) (address : Address) (method : Krpc.Method)
    (draws : ℕ) (stream : ByteStream) :
    Option (Except Error (ℕ × Bytes)) → Transactions → Prop
  | closed (h : t.closed = true) :
      Begun t now address method draws stream (some (.error .shutdown)) t
  | full (h : t.closed = false) (full : t.limit ≤ t.pending.length) :
      Begun t now address method draws stream (some (.error .rateLimited)) t
  | drawing (h : t.closed = false) (room : t.pending.length < t.limit)
      (taken : ∀ id ∈ drawnIds draws stream, id ∈ t.ids) :
      Begun t now address method draws stream none t
  | entered {transaction : Bytes} (h : t.closed = false) (room : t.pending.length < t.limit)
      (first : t.FirstFree draws stream transaction) :
      Begun t now address method draws stream (some (.ok (t.next, transaction)))
        (t.enter transaction now address method)

/-- **A query is begun in one of these ways**, whatever ids are drawn. -/
theorem begin_begun (t : Transactions) (now : Instant) (address : Address) (method : Krpc.Method)
    (draws : ℕ) (stream : ByteStream) :
    Begun t now address method draws stream (t.begin now address method draws stream).1
      (t.begin now address method draws stream).2.1 := by
  rw [«begin»]
  split
  · next h => exact .closed h
  · next h =>
      have h : t.closed = false := by simpa using h
      split
      · next full => exact .full h full
      · next room =>
          have room : t.pending.length < t.limit := by omega
          split
          · next drawn => exact .drawing h room (drawId_eq_none_iff.mp (congrArg Prod.fst drawn))
          · next drawn => exact .entered h room (drawId_eq_some_iff.mp (congrArg Prod.fst drawn))

/-- If there is room for a query, it is up to the ids that are drawn what comes of it. -/
theorem begin_of_room (running : t.closed = false) (room : t.pending.length < t.limit)
    (now : Instant) (address : Address) (method : Krpc.Method) (draws : ℕ) (stream : ByteStream) :
    t.begin now address method draws stream = match t.drawId draws stream with
      | (none, stream) => (none, t, stream)
      | (some transaction, stream) =>
        (some (.ok (t.next, transaction)), t.enter transaction now address method, stream) := by
  have running : ¬ t.closed = true := by simp [running]
  rw [«begin», if_neg running, if_neg (Nat.not_le.mpr room)]
  rfl

/-- A query is refused with a shutdown only if the node has been shut down. -/
theorem closed_of_begin_shutdown {now : Instant} {address : Address} {method : Krpc.Method}
    {draws : ℕ} {stream : ByteStream}
    (h : (t.begin now address method draws stream).1 = some (.error .shutdown)) :
    t.closed = true := by
  have begun := t.begin_begun now address method draws stream
  rw [h] at begun
  generalize (t.begin now address method draws stream).2.1 = t' at begun
  cases begun with
  | closed hclosed => exact hclosed

/-! ### Handing replies over -/

section Handed

variable (queries : List OpenQuery) (handed : ℕ → Prop) [DecidablePred handed] (reply : Reply)

/-- Handing a reply to some queries changes these and no others. -/
theorem mem_map_handed_iff {q : OpenQuery} :
    (q ∈ queries.map fun q => if handed q.number then { q with reply := some reply } else q) ↔
      (q ∈ queries ∧ ¬ handed q.number) ∨
        ∃ q₀ ∈ queries, handed q₀.number ∧ q = { q₀ with reply := some reply } := by
  rw [List.mem_map]
  constructor
  · rintro ⟨q₀, hq₀, rfl⟩
    by_cases h : handed q₀.number
    · exact .inr ⟨q₀, hq₀, h, if_pos h⟩
    · rw [if_neg h]
      exact .inl ⟨hq₀, h⟩
  · rintro (⟨hq, h⟩ | ⟨q₀, hq₀, h, rfl⟩)
    · exact ⟨q, hq, if_neg h⟩
    · exact ⟨q₀, hq₀, if_pos h⟩

/-- Handing a reply over changes no number. -/
theorem map_number_handed :
    (queries.map fun q => if handed q.number then { q with reply := some reply } else q).map
      OpenQuery.number = queries.map OpenQuery.number := by
  rw [List.map_map]
  refine List.map_congr_left fun q _ => ?_
  by_cases h : handed q.number <;> simp [h]

end Handed

/-! ### Ending a query -/

/-- **When and how a query ends that has its turn**: with what it was handed, with a shutdown if
it has neither been handed anything nor an entry any longer, and with a timeout at its deadline. -/
theorem verdict_eq_some_iff {now : Instant} {q : OpenQuery} {reply : Reply} :
    t.verdict now q = some reply ↔
      q.reply = some reply ∨
        q.reply = none ∧
          (¬ t.Waits q.number ∧ reply = .error .shutdown ∨
            t.Waits q.number ∧ q.deadline ≤ now ∧ reply = .error .timeout) := by
  have hwaits : (t.pending.any fun entry => entry.2.number == q.number) = true ↔
      t.Waits q.number := by
    simp [Waits]
  rw [verdict]
  cases hreply : q.reply with
  | some reply' => simp
  | none =>
      by_cases hw : t.Waits q.number
      · by_cases hdue : q.deadline ≤ now
        · simp [hwaits.mpr hw, hw, hdue, eq_comm]
        · simp [hwaits.mpr hw, hw, hdue]
      · have hnone : (t.pending.any fun entry => entry.2.number == q.number) = false := by
          rw [← Bool.not_eq_true, hwaits]
          exact hw
        simp [hnone, hw, eq_comm]

/-- The turn of a query: it goes on waiting, or it ends and is removed. -/
theorem Sound.turn_cases (h : t.Sound) (now : Instant) (number : ℕ) :
    ((t.turn now number).1 = none ∧ (t.turn now number).2.1 = t ∧
        ∀ q ∈ t.openQueries, q.number = number → t.verdict now q = none) ∨
      ∃ q ∈ t.openQueries, q.number = number ∧ ∃ reply, t.verdict now q = some reply ∧
        (t.turn now number).1 = some reply ∧ (t.turn now number).2.1 = (t.conclude q).1 := by
  rw [turn]
  cases hfind : t.openQueries.find? (·.number == number) with
  | none =>
      refine .inl ⟨rfl, rfl, fun q hq hnumber => ?_⟩
      have hne := List.find?_eq_none.mp hfind q hq
      simp [hnumber] at hne
  | some q =>
      obtain ⟨hq, hnumber⟩ := h.find?_iff.mp hfind
      cases hverdict : t.verdict now q with
      | none =>
          refine .inl ⟨by simp [hverdict], by simp [hverdict], fun q' hq' hnumber' => ?_⟩
          rw [h.open_ext hq' hq (hnumber'.trans hnumber.symm)]
          exact hverdict
      | some reply =>
          exact .inr ⟨q, hq, hnumber, reply, hverdict, by simp [hverdict], by simp [hverdict]⟩

/-- How a query ends that has its turn. -/
theorem Sound.turn_eq_some_iff (h : t.Sound) {now : Instant} {number : ℕ} {reply : Reply} :
    (t.turn now number).1 = some reply ↔
      ∃ q ∈ t.openQueries, q.number = number ∧ t.verdict now q = some reply := by
  obtain ⟨hwait, -, hnone⟩ | ⟨q, hq, hnumber, reply', hverdict, hend, -⟩ := h.turn_cases now number
  · rw [hwait]
    refine ⟨nofun, fun ⟨q, hq, hnumber, hverdict⟩ => ?_⟩
    rw [hnone q hq hnumber] at hverdict
    cases hverdict
  · rw [hend, ← hverdict]
    refine ⟨fun hreply => ⟨q, hq, hnumber, hreply⟩, fun ⟨q', hq', hnumber', hreply⟩ => ?_⟩
    rwa [h.open_ext hq hq' (hnumber.trans hnumber'.symm)]

/-- A query that ends with something else than a shutdown or a timeout has been handed it. -/
theorem Sound.handed_of_turn (h : t.Sound) {now : Instant} {number : ℕ} {reply : Reply}
    (hturn : (t.turn now number).1 = some reply) (hshutdown : reply ≠ .error .shutdown)
    (htimeout : reply ≠ .error .timeout) :
    ∃ q ∈ t.openQueries, q.number = number ∧ q.reply = some reply := by
  obtain ⟨q, hq, hnumber, hverdict⟩ := h.turn_eq_some_iff.mp hturn
  obtain handed | ⟨-, ⟨-, heq⟩ | ⟨-, -, heq⟩⟩ := verdict_eq_some_iff.mp hverdict
  · exact ⟨q, hq, hnumber, handed⟩
  · exact absurd heq hshutdown
  · exact absurd heq htimeout

/-- A query that is abandoned is removed, if it is open. -/
theorem Sound.abandon_cases (h : t.Sound) (number : ℕ) :
    ((t.abandon number).1 = t ∧ ∀ q ∈ t.openQueries, q.number ≠ number) ∨
      ∃ q ∈ t.openQueries, q.number = number ∧ (t.abandon number).1 = (t.conclude q).1 := by
  rw [abandon]
  cases hfind : t.openQueries.find? (·.number == number) with
  | none =>
      refine .inl ⟨rfl, fun q hq => ?_⟩
      simpa using List.find?_eq_none.mp hfind q hq
  | some q =>
      obtain ⟨hq, hnumber⟩ := h.find?_iff.mp hfind
      exact .inr ⟨q, hq, hnumber, rfl⟩

theorem mem_pending_conclude_iff {q : OpenQuery} {transaction : Bytes} {entry : PendingQuery} :
    (transaction, entry) ∈ (t.conclude q).1.pending ↔
      (transaction, entry) ∈ t.pending ∧ transaction ≠ q.transaction := by
  simp [conclude]

theorem mem_openQueries_conclude_iff {q q' : OpenQuery} :
    q' ∈ (t.conclude q).1.openQueries ↔ q' ∈ t.openQueries ∧ q'.number ≠ q.number := by
  simp [conclude]

/-- The end of a query makes no other wait. -/
theorem waits_of_waits_conclude {q : OpenQuery} {number : ℕ}
    (hwaits : (t.conclude q).1.Waits number) : t.Waits number := by
  obtain ⟨transaction, entry, hentry, hnumber⟩ := hwaits
  exact ⟨transaction, entry, (mem_pending_conclude_iff.mp hentry).1, hnumber⟩

/-! ### Taking an answer -/

/-- The books once an answer has been handed over. -/
def answered (t : Transactions) (transaction : Bytes) (number : ℕ) (reply : Reply) :
    Transactions :=
  { t with pending := t.pending.filter (·.1 != transaction) }.handOver number reply

theorem mem_pending_answered_iff {transaction tid : Bytes} {number : ℕ} {reply : Reply}
    {entry : PendingQuery} :
    (tid, entry) ∈ (t.answered transaction number reply).pending ↔
      (tid, entry) ∈ t.pending ∧ tid ≠ transaction := by
  simp [answered, handOver]

theorem mem_openQueries_answered_iff {transaction : Bytes} {number : ℕ} {reply : Reply}
    {q : OpenQuery} :
    q ∈ (t.answered transaction number reply).openQueries ↔
      (q ∈ t.openQueries ∧ q.number ≠ number) ∨
        ∃ q₀ ∈ t.openQueries, q₀.number = number ∧ q = { q₀ with reply := some reply } :=
  mem_map_handed_iff t.openQueries (· = number) reply

theorem numbers_answered (t : Transactions) (transaction : Bytes) (number : ℕ) (reply : Reply) :
    (t.answered transaction number reply).openQueries.map OpenQuery.number =
      t.openQueries.map OpenQuery.number :=
  map_number_handed t.openQueries (· = number) reply

/-- The query that has been answered waits no longer, and every other one still does. -/
theorem Sound.waits_answered_iff (h : t.Sound) {transaction : Bytes} {entry : PendingQuery}
    {reply : Reply} {number : ℕ} (hentry : (transaction, entry) ∈ t.pending) :
    (t.answered transaction entry.number reply).Waits number ↔
      t.Waits number ∧ number ≠ entry.number := by
  constructor
  · rintro ⟨tid, e, he, rfl⟩
    obtain ⟨he, hne⟩ := mem_pending_answered_iff.mp he
    exact ⟨⟨tid, e, he, rfl⟩, fun hnumber => hne (h.number_ext he hentry hnumber).1⟩
  · rintro ⟨⟨tid, e, he, rfl⟩, hne⟩
    refine ⟨tid, e, mem_pending_answered_iff.mpr ⟨he, ?_⟩, rfl⟩
    rintro rfl
    exact hne (congrArg PendingQuery.number (h.entry_ext he hentry))

/-- An answer is handed over to the query that waits for it, or nothing changes. -/
theorem Sound.complete_cases (h : t.Sound) (now : Instant) (source : Address)
    (transaction : Bytes) (reply : Reply) :
    (∃ entry, (transaction, entry) ∈ t.pending ∧ entry.address = source ∧ now ≤ entry.deadline ∧
        t.complete now source transaction reply =
          (t.answered transaction entry.number reply, some entry.number)) ∨
      (t.complete now source transaction reply = (t, none) ∧
        ∀ entry, (transaction, entry) ∈ t.pending →
          ¬ (entry.address = source ∧ now ≤ entry.deadline)) := by
  rw [complete]
  cases hlookup : t.pending.lookup transaction with
  | none =>
      refine .inr ⟨rfl, fun entry hentry => ?_⟩
      rw [h.lookup_iff.mpr hentry] at hlookup
      cases hlookup
  | some entry =>
      have hentry := h.lookup_iff.mp hlookup
      by_cases hmatch : entry.address = source ∧ now ≤ entry.deadline
      · exact .inl ⟨entry, hentry, hmatch.1, hmatch.2, by simp [hmatch, answered]⟩
      · refine .inr ⟨by simp [hmatch], fun entry' hentry' => ?_⟩
        rwa [h.entry_ext hentry' hentry]

/-! ### Shutting down -/

/-- Handing one reply over to many queries. -/
theorem foldl_handOver (t : Transactions) (numbers : List ℕ) (reply : Reply) :
    numbers.foldl (fun t number => t.handOver number reply) t =
      { t with
        openQueries := t.openQueries.map fun q =>
          if q.number ∈ numbers then { q with reply := some reply } else q } := by
  induction numbers generalizing t with
  | nil => simp
  | cons number numbers ih =>
      rw [List.foldl_cons, ih, handOver]
      simp only [List.map_map, Transactions.mk.injEq, true_and, and_true]
      refine List.map_congr_left fun q _ => ?_
      by_cases hq : q.number = number <;> by_cases hqs : q.number ∈ numbers <;>
        simp_all

/-- What remains of the books after a shutdown: no entry, and every query that had one has been
handed a shutdown. -/
theorem close_eq (hopen : t.closed = false) :
    t.close.1 = { t with
      closed := true
      pending := []
      openQueries := t.openQueries.map fun q =>
        if q.number ∈ t.pending.map (·.2.number) then
          { q with reply := some (.error .shutdown) } else q } := by
  simp only [close, hopen, Bool.false_eq_true, if_false]
  exact foldl_handOver _ _ _

@[simp] theorem closed_close (t : Transactions) : t.close.1.closed = true := by
  cases hopen : t.closed with
  | true => simp [close, hopen]
  | false => rw [close_eq hopen]

/-- After a shutdown no query waits. -/
theorem not_waits_close (hopen : t.closed = false) (number : ℕ) : ¬ t.close.1.Waits number := by
  rintro ⟨transaction, entry, hentry, -⟩
  rw [close_eq hopen] at hentry
  cases hentry

/-- A shutdown is handed to the queries that wait, and changes no other. -/
theorem mem_openQueries_close_iff (hopen : t.closed = false) {q : OpenQuery} :
    q ∈ t.close.1.openQueries ↔
      (q ∈ t.openQueries ∧ ¬ t.Waits q.number) ∨
        ∃ q₀ ∈ t.openQueries, t.Waits q₀.number ∧
          q = { q₀ with reply := some (.error .shutdown) } := by
  have hwaits (number : ℕ) : number ∈ t.pending.map (·.2.number) ↔ t.Waits number := by
    simp [Waits]
  rw [close_eq hopen]
  simpa only [hwaits] using mem_map_handed_iff t.openQueries (· ∈ t.pending.map (·.2.number))
    (.error .shutdown)

/-! ### The books stay sound -/

/-- Books without queries are sound. -/
theorem sound_create (settings : Settings) : (create settings).Sound := by
  refine ⟨?_, ?_, ?_, ?_, ?_⟩ <;> simp [create, ids]

/-- Sound books stay sound when a query is entered under a free id. -/
theorem Sound.enter (h : t.Sound) {transaction : Bytes} {now : Instant} {address : Address}
    {method : Krpc.Method} (hopen : t.closed = false) (free : transaction ∉ t.ids) :
    (t.enter transaction now address method).Sound := by
  refine ⟨?_, ?_, ?_, ?_, fun hclosed => ?_⟩
  · have hids : (t.enter transaction now address method).ids = t.ids ++ [transaction] := by
      simp [ids, Transactions.enter]
    rw [hids]
    exact h.ids_nodup.append (List.nodup_singleton _) (List.disjoint_singleton.mpr free)
  · have hnumbers : (t.enter transaction now address method).openQueries.map OpenQuery.number =
        t.openQueries.map OpenQuery.number ++ [t.next] := by
      simp [Transactions.enter]
    have hnew : t.next ∉ t.openQueries.map OpenQuery.number := by
      intro hmem
      obtain ⟨q, hq, hnumber⟩ := List.mem_map.mp hmem
      exact Nat.ne_of_lt (h.numbers_lt q hq) hnumber
    rw [hnumbers]
    exact h.numbers_nodup.append (List.nodup_singleton _) (List.disjoint_singleton.mpr hnew)
  · intro q hq
    obtain hq | rfl := mem_openQueries_enter_iff.mp hq
    · exact Nat.lt_succ_of_lt (h.numbers_lt q hq)
    · exact Nat.lt_succ_self _
  · intro tid entry hentry
    obtain hentry | ⟨rfl, rfl⟩ := mem_pending_enter_iff.mp hentry
    · obtain ⟨q, hq, hmatch⟩ := h.entry_open tid entry hentry
      exact ⟨q, mem_openQueries_enter_iff.mpr (.inl hq), hmatch⟩
    · exact ⟨_, mem_openQueries_enter_iff.mpr (.inr rfl), rfl, rfl, rfl, rfl⟩
  · have hfalse : t.closed = true := hclosed
    rw [hopen] at hfalse
    cases hfalse

/-- Sound books stay sound when a query ends. -/
theorem Sound.conclude (h : t.Sound) {q : OpenQuery} (hq : q ∈ t.openQueries) :
    (t.conclude q).1.Sound := by
  refine ⟨?_, ?_, fun q' hq' => ?_, fun transaction entry hentry => ?_, fun hclosed => ?_⟩
  · exact h.ids_nodup.sublist (List.Sublist.map _ List.filter_sublist)
  · exact h.numbers_nodup.sublist (List.Sublist.map _ List.filter_sublist)
  · exact h.numbers_lt q' (mem_openQueries_conclude_iff.mp hq').1
  · obtain ⟨hentry, hne⟩ := mem_pending_conclude_iff.mp hentry
    obtain ⟨q', hq', hnumber, htransaction, hdeadline, hreply⟩ := h.entry_open _ _ hentry
    refine ⟨q', mem_openQueries_conclude_iff.mpr ⟨hq', fun heq => hne ?_⟩, hnumber, htransaction,
      hdeadline, hreply⟩
    rw [← htransaction, h.open_ext hq' hq heq]
  · have hnil := h.closed_empty hclosed
    simp [Transactions.conclude, hnil]

/-- Sound books stay sound when an answer is handed over to the query that waits for it. -/
theorem Sound.answered (h : t.Sound) {transaction : Bytes} {entry : PendingQuery} (reply : Reply)
    (hentry : (transaction, entry) ∈ t.pending) :
    (t.answered transaction entry.number reply).Sound := by
  refine ⟨?_, ?_, fun q hq => ?_, fun tid e he => ?_, fun hclosed => ?_⟩
  · exact h.ids_nodup.sublist (List.Sublist.map _ List.filter_sublist)
  · rw [numbers_answered]
    exact h.numbers_nodup
  · obtain ⟨hq, -⟩ | ⟨q₀, hq₀, -, rfl⟩ := mem_openQueries_answered_iff.mp hq
    · exact h.numbers_lt q hq
    · exact h.numbers_lt q₀ hq₀
  · obtain ⟨he, hne⟩ := mem_pending_answered_iff.mp he
    obtain ⟨q, hq, hnumber, hmatch⟩ := h.entry_open _ _ he
    refine ⟨q, mem_openQueries_answered_iff.mpr (.inl ⟨hq, fun heq => hne ?_⟩), hnumber, hmatch⟩
    exact (h.number_ext he hentry (hnumber.symm.trans heq)).1
  · have hnil := h.closed_empty hclosed
    rw [hnil] at hentry
    cases hentry

/-- Sound books stay sound at a shutdown. -/
theorem Sound.close (h : t.Sound) : t.close.1.Sound := by
  cases hopen : t.closed with
  | true => simpa [Transactions.close, hopen] using h
  | false =>
      rw [close_eq hopen]
      refine ⟨List.nodup_nil, ?_, fun q hq => ?_, by simp, fun _ => rfl⟩
      · rw [map_number_handed]
        exact h.numbers_nodup
      · obtain ⟨hq, -⟩ | ⟨q₀, hq₀, -, rfl⟩ := (mem_map_handed_iff _ _ _).mp hq
        · exact h.numbers_lt q hq
        · exact h.numbers_lt q₀ hq₀

end Transactions

end Mainline
