import Mathlib.Data.Set.Basic
import Mainline.Proofs.Traffic.Course

/-!
# Who vouches for a contact

A message *vouches* for a contact if it comes from exactly the contact's address and carries the
contact's id, as the sender of a query or in a response that is taken. Anything else that a message
says of contacts is hearsay.

A query is asked of an address, and a response under which it may end has been taken from that
address. So whoever waits for the query may rely on the responder: `Transactions.Awaits` is what the
books promise to it, and no event at the node breaks the promise, however late the query has its
turn.

## Main results

* `Node.table_dealWith_vouched`, `Traffic.table_receive_vouched`: what is offered to the routing
  table.
* `Transactions.Awaits.run`: events keep the promise.
* `Transactions.Awaits.honest_turn`: the reply that a query ends with is an honest one.
-/

namespace Mainline

variable {V V' : Set Contact}

/-- A reply that has been got from an address is **honest** if the responder has been vouched for,
unless it is no response. -/
def Honest (V : Set Contact) (address : Address) (reply : Reply) : Prop :=
  ∀ response, reply = .ok response → ⟨response.id, address⟩ ∈ V

theorem honest_error (V : Set Contact) (address : Address) (e : Error) :
    Honest V address (.error e) :=
  nofun

theorem Honest.mono {address : Address} {reply : Reply} (h : Honest V address reply) (hV : V ⊆ V') :
    Honest V' address reply :=
  fun response heq => hV (h response heq)

/-- A message that comes from `source` **vouches** for a contact: the contact is there and has sent
the query, or the response that the message is, which is taken when the message is dealt with. -/
structure Node.Vouches (node : Node) (now : Instant) (source : Address) (message : Krpc.Message)
    (contact : Contact) : Prop where
  address_eq : contact.address = source
  carries : (∃ query, message.body = .query contact.id query) ∨
    ∃ response, message.body = .response response ∧ response.id = contact.id ∧
      (node.dealWith now source message).2.completed.isSome

/-- **A message offers at most a contact that it vouches for**, as active at the moment. -/
theorem Node.table_dealWith_vouched (node : Node) (now : Instant) (source : Address)
    (message : Krpc.Message) : (node.dealWith now source message).1.table = node.table ∨
      ∃ contact, node.Vouches now source message contact ∧
        (node.dealWith now source message).1.table =
          (node.table.observe now (.active contact now)).1 := by
  obtain ⟨transaction, ⟨sender, query⟩ | response | error⟩ := message
  · exact .inr ⟨⟨sender, source⟩, ⟨rfl, .inl ⟨query, rfl⟩⟩, rfl⟩
  · exact .inl rfl
  · exact .inl rfl

namespace Traffic

/-- A datagram that comes from `source` **vouches** for a contact if it is read as a message that
does. -/
def Vouches (s : State) (source : Address) (data : Bytes) (contact : Contact) : Prop :=
  ∃ message, Krpc.Message.decode data s.books.method? = .ok message ∧
    s.node.Vouches s.now source message contact

theorem Vouches.address_eq {s : State} {source : Address} {data : Bytes} {contact : Contact}
    (vouches : Vouches s source data contact) : contact.address = source := by
  obtain ⟨message, -, vouches⟩ := vouches
  exact vouches.address_eq

/-- The contacts that an event vouches for: those that the message does that is dealt with. -/
def vouchedBy (s : State) (e : Event) : Set Contact :=
  { contact | e = .finish ∧ ∃ source message, s.inHand = some (source, message) ∧
    s.node.Vouches s.now source message contact }

/-- A datagram that is taken at once vouches for whom it vouches for when it is dealt with. -/
theorem vouches_of_vouchedBy_finish {s : State} {source : Address} {data : Bytes} {contact : Contact}
    (h : contact ∈ vouchedBy ((Event.read source data).run s) .finish) :
    Vouches s source data contact := by
  obtain ⟨-, source', message, inHand, vouches⟩ := h
  obtain ⟨rfl, decoded⟩ := inHand_read_iff.mp inHand
  exact ⟨message, decoded, vouches⟩

/-- **A datagram offers at most a contact that it vouches for**, as active at the moment. -/
theorem table_receive_vouched (s : State) (source : Address) (data : Bytes) :
    (s.node.receive s.now source data).1.table = s.node.table ∨
      ∃ contact, Vouches s source data contact ∧ (s.node.receive s.now source data).1.table =
        (s.node.table.observe s.now (.active contact s.now)).1 := by
  rw [Node.receive]
  cases hdecode : Krpc.Message.decode data s.books.method? with
  | error e => exact .inl rfl
  | ok message =>
      obtain hsame | ⟨contact, vouches, hoffered⟩ :=
        s.node.table_dealWith_vouched s.now source message
      · exact .inl hsame
      · exact .inr ⟨contact, ⟨message, hdecode, vouches⟩, hoffered⟩

/-- An answer vouches for the responder. -/
theorem Answers.vouches {s : State} (h : s.books.Sound) {e : Event} {transaction : Bytes}
    {entry : PendingQuery} (pending : (transaction, entry) ∈ s.books.pending)
    {response : Krpc.Response} (answers : Answers s e transaction entry (.ok response)) :
    ⟨response.id, entry.address⟩ ∈ vouchedBy s e := by
  obtain ⟨inTime, rfl, body, inHand, isReply⟩ := answers
  refine ⟨rfl, entry.address, _, inHand, rfl, .inr ?_⟩
  cases body with
  | query sender query => cases isReply
  | error error => cases isReply
  | response response' =>
      cases isReply
      refine ⟨response, rfl, rfl, ?_⟩
      obtain ⟨reply, isReply, htaken⟩ | ⟨hnone, -⟩ :=
        books_dealWith s.node s.now entry.address ⟨transaction, .response response⟩
      · cases isReply
        obtain ⟨entry', pending', -, -, hcomplete⟩ | ⟨-, hmismatch⟩ :=
          h.complete_cases s.now entry.address transaction (.ok response)
        · exact Option.isSome_of_eq_some (congrArg Prod.snd (htaken.trans hcomplete))
        · exact absurd ⟨rfl, inTime⟩ (hmismatch entry pending)
      · cases hnone

end Traffic

namespace Transactions

variable {t : Transactions} {number : ℕ} {address : Address}

/-- What the books **promise** to whoever waits for a query that has been sent to an address: the
query has been begun, its entry names the address, and what it has been handed is honest. -/
structure Awaits (V : Set Contact) (t : Transactions) (number : ℕ) (address : Address) : Prop where
  begun : number < t.next
  asks : ∀ transaction entry, (transaction, entry) ∈ t.pending → entry.number = number →
    entry.address = address
  handed : ∀ q ∈ t.openQueries, q.number = number → ∀ reply, q.reply = some reply →
    Honest V address reply

theorem Awaits.mono (h : t.Awaits V number address) (hV : V ⊆ V') : t.Awaits V' number address :=
  ⟨h.begun, h.asks, fun q hq hnumber reply hreply => (h.handed q hq hnumber reply hreply).mono hV⟩

/-- A query that has just been entered is awaited. -/
theorem Sound.awaits_enter (h : t.Sound) (V : Set Contact) (transaction : Bytes) (now : Instant)
    (address : Address) (method : Krpc.Method) :
    (t.enter transaction now address method).Awaits V t.next address := by
  refine ⟨Nat.lt_succ_self _, fun transaction' entry hentry hnumber => ?_, fun q hq hnumber => ?_⟩
  · obtain hentry | ⟨-, rfl⟩ := mem_pending_enter_iff.mp hentry
    · obtain ⟨q, hq, hqn, -⟩ := h.entry_open _ _ hentry
      exact absurd (hqn.trans hnumber) (Nat.ne_of_lt (h.numbers_lt q hq))
    · rfl
  · obtain hq | rfl := mem_openQueries_enter_iff.mp hq
    · exact absurd hnumber (Nat.ne_of_lt (h.numbers_lt q hq))
    · exact nofun

/-- **Events keep the promise** to whoever waits for a query: what it is handed has been taken in
that event from the address that was asked. -/
theorem Awaits.run {s : Traffic.State} (h : s.books.Sound)
    (awaits : s.books.Awaits V number address) (e : Traffic.Event) (hV : V ⊆ V')
    (heard : Traffic.vouchedBy s e ⊆ V') : (e.run s).books.Awaits V' number address := by
  have awaits := awaits.mono hV
  have effect := Traffic.Event.effect h e
  generalize (e.run s).books = t at effect ⊢
  cases effect with
  | none => exact awaits
  | entered asks running free =>
      have hne : number ≠ s.books.next := Nat.ne_of_lt awaits.begun
      refine ⟨Nat.lt_succ_of_lt awaits.begun, fun transaction entry hentry hnumber => ?_,
        fun q hq hnumber => ?_⟩
      · obtain hentry | ⟨-, rfl⟩ := mem_pending_enter_iff.mp hentry
        · exact awaits.asks transaction entry hentry hnumber
        · exact absurd hnumber.symm hne
      · obtain hq | rfl := mem_openQueries_enter_iff.mp hq
        · exact awaits.handed q hq hnumber
        · exact absurd hnumber.symm hne
  | @answered _ transaction entry reply pending answers =>
      refine ⟨awaits.begun, fun tid other hother hnumber => ?_, fun q hq hnumber reply' hreply => ?_⟩
      · exact awaits.asks tid other (mem_pending_answered_iff.mp hother).1 hnumber
      · obtain ⟨hq, -⟩ | ⟨q₀, -, hasked, rfl⟩ := mem_openQueries_answered_iff.mp hq
        · exact awaits.handed q hq hnumber reply' hreply
        · obtain rfl := Option.some.inj hreply
          have haddress := awaits.asks transaction entry pending (hasked.symm.trans hnumber)
          rintro response rfl
          rw [← haddress]
          exact heard (answers.vouches h pending)
  | ended ends =>
      refine ⟨awaits.begun, fun tid other hother => ?_, fun q hq => ?_⟩
      · exact awaits.asks tid other (mem_pending_conclude_iff.mp hother).1
      · exact awaits.handed q (mem_openQueries_conclude_iff.mp hq).1
  | closed running =>
      refine ⟨?_, fun tid other hother => ?_, fun q hq hnumber reply hreply => ?_⟩
      · rw [close_eq running]
        exact awaits.begun
      · rw [close_eq running] at hother
        cases hother
      · obtain ⟨hq, -⟩ | ⟨q₀, -, -, rfl⟩ := (mem_openQueries_close_iff running).mp hq
        · exact awaits.handed q hq hnumber reply hreply
        · obtain rfl := Option.some.inj hreply
          exact honest_error V' address .shutdown

/-- A datagram that is taken at once keeps the promise. -/
theorem Awaits.receive {s : Traffic.State} (h : s.books.Sound)
    (awaits : s.books.Awaits V number address) (source : Address) (data : Bytes) (hV : V ⊆ V')
    (heard : { contact | Traffic.Vouches s source data contact } ⊆ V') :
    (Traffic.runAll s (Traffic.receive source data)).books.Awaits V' number address := by
  have read := awaits.run h (.read source data) subset_rfl fun contact ⟨reading, _⟩ => by cases reading
  refine read.run (Traffic.sound_run h _) .finish hV fun contact vouched => heard ?_
  exact Traffic.vouches_of_vouchedBy_finish vouched

/-- **The reply that a query ends with is honest.** -/
theorem Awaits.honest_turn (awaits : t.Awaits V number address) (h : t.Sound) {now : Instant}
    {reply : Reply} (hturn : (t.turn now number).1 = some reply) : Honest V address reply := by
  obtain ⟨q, hq, hnumber, hverdict⟩ := h.turn_eq_some_iff.mp hturn
  obtain handed | ⟨-, ⟨-, rfl⟩ | ⟨-, -, rfl⟩⟩ := verdict_eq_some_iff.mp hverdict
  · exact awaits.handed q hq hnumber reply handed
  · exact honest_error V address .shutdown
  · exact honest_error V address .timeout

end Transactions

end Mainline
