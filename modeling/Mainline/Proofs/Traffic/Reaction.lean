import Mainline.Proofs.Server.Run
import Mainline.Proofs.Traffic.Course
import Mainline.Simulation.Turn

/-!
# What a node does with a datagram

Anybody may send a node anything. A datagram that is a query is answered, once and to where it came
from. Nothing else is, and what it changes is an entry of the books at most: that of the query it
answers. A datagram that is no message, or that answers nothing the node has asked, or comes from
somewhere else or too late, leaves no trace.

## Main results

* `Server.answersTo_handle`: a server answers with a response of the method that was called, or
  with an error.
* `Node.receive_of_query`, `Node.receive_of_other`: what taking a datagram can change of a node.
* `World.network_takeDatagrams`: what is sent in the world is the answer, and nothing else.
* `reacts_to_every_datagram`: what a node does with any datagram, at any moment.
-/

namespace Mainline

open Krpc (Message)

/-! ### Answers to queries -/

/-- The body is what a node with this id may **answer a query with**: a response of the query's own
method, with the id, or an error. -/
inductive AnswersTo (localId : Key) (query : Krpc.Query) : Krpc.Body → Prop
  | response {r : Krpc.Response} (method : r.method = query.method) (id : r.id = localId) :
      AnswersTo localId query (.response r)
  | error (e : Krpc.RemoteError) : AnswersTo localId query (.error e)

/-- **A server answers with a response of the method that was called**, and its own id, or with an
error. -/
theorem Server.answersTo_handle (server : Server) (table : Routing.Table) (now : Instant)
    (source : Address) (sender : Key) (query : Krpc.Query) :
    AnswersTo server.localId query
      (match (server.handle table now source sender query).1 with
        | .ok response => .response response
        | .error error => .error error) := by
  cases query with
  | ping | findNode | getPeers => exact .response rfl rfl
  | announcePeer infoHash port token implied =>
      have taken := server.announce_taken now source infoHash port token implied
      simp only [handle, answer]
      generalize server.announce now source infoHash port token implied = result at taken ⊢
      cases taken with
      | invalid | unusable => exact .error _
      | kept => exact .response rfl rfl

namespace Node

variable {node : Node} (now : Instant) (source : Address) {data : Bytes}

/-- **A query is answered**, under its transaction id and to where it came from; only the table and
the server of the node change. -/
theorem receive_of_query {transaction : Bytes} {sender : Key} {query : Krpc.Query}
    (h : Message.decode data node.transactions.method? = .ok ⟨transaction, .query sender query⟩) :
    ∃ body table server, AnswersTo node.server.localId query body ∧
      server.localId = node.server.localId ∧
      node.receive now source data = ({ node with table, server },
        { answer := some ⟨node.address, source, (Message.mk transaction body).encode⟩ }) := by
  have answersTo := node.server.answersTo_handle node.table now source sender query
  have hid : (node.server.handle node.table now source sender query).2.2.localId =
      node.server.localId :=
    Server.Action.localId_run node.server now (.handle node.table source sender query)
  rw [receive, h]
  dsimp only
  rw [dealWith]
  generalize node.server.handle node.table now source sender query = result at answersTo hid ⊢
  obtain ⟨reply, table, server⟩ := result
  exact ⟨_, table, server, answersTo, hid, rfl⟩

/-- **Anything else is not answered**, and only the books of the node may change. -/
theorem receive_of_other (h : ∀ transaction sender query,
    Message.decode data node.transactions.method? ≠ .ok ⟨transaction, .query sender query⟩) :
    (node.receive now source data).2.answer = none ∧
      ∃ transactions, (node.receive now source data).1 = { node with transactions } := by
  rw [receive]
  rcases hdecode : Message.decode data node.transactions.method? with
    e | ⟨transaction, ⟨sender, query⟩ | response | error⟩
  · exact ⟨rfl, node.transactions, rfl⟩
  · exact absurd hdecode (h transaction sender query)
  · exact ⟨rfl, _, rfl⟩
  · exact ⟨rfl, _, rfl⟩

end Node

/-! ### What is sent -/

namespace Simulation.World

theorem network_enqueue (w : World) (task : TaskId) : (w.enqueue task).network = w.network := by
  rw [enqueue]
  split
  · rfl
  · split <;> rfl

theorem network_wakeQuery? (w : World) (i : ℕ) (number? : Option ℕ) :
    (w.wakeQuery? i number?).network = w.network := by
  cases number? with
  | none => rfl
  | some number =>
      rw [wakeQuery?, wakeQuery]
      split
      · rw [wake, network_enqueue]
        split <;> rfl
      · rfl

/-- Sending puts the datagram on the network, which drops it if nobody has bound its target. -/
theorem network_send (w : World) (d : Datagram) : (w.send d).network = w.network.send d := by
  rw [send]
  split
  · dsimp only
    split
    · exact network_enqueue _ _
    · rfl
  · next unbound =>
      have hports : (w.network.send d).ports = w.network.ports := by
        refine (List.map_congr_left ?_).trans (List.map_id _)
        rintro ⟨address, inbox⟩ hport
        refine if_neg fun heq => unbound ?_
        exact List.any_eq_true.mpr ⟨_, hport, beq_iff_eq.mpr heq⟩
      exact congrArg (Network.mk · w.network.lastHost) hports.symm

/-- **What is sent is the answer**, and nothing else. -/
theorem network_takeDatagrams (w : World) (i : ℕ) (d : Datagram) :
    (w.takeDatagrams i [d]).network =
      ((w.node i).receive w.now d.source d.data).2.answer.toList.foldl Network.send w.network := by
  simp only [takeDatagrams, network_wakeQuery?]
  cases ((w.node i).receive w.now d.source d.data).2.answer with
  | none => rfl
  | some answer => exact network_send _ answer

end Simulation.World

/-! ### What is left of the books -/

namespace Traffic

/-- The datagram **settles** an entry of the books: it is a response or an error under the entry's
transaction id, comes from the address that was asked, and does not come after the deadline. -/
def Settles (s : State) (source : Address) (data transaction : Bytes) (entry : PendingQuery) :
    Prop :=
  (transaction, entry) ∈ s.books.pending ∧ entry.address = source ∧ s.now ≤ entry.deadline ∧
    ∃ body reply, Message.decode data s.books.method? = .ok ⟨transaction, body⟩ ∧
      body.reply? = some reply

variable {s : State} {source : Address} {data : Bytes}

/-- A datagram that settles an entry removes it, and no other. -/
theorem Settles.exists_removed (h : s.books.Sound) {transaction : Bytes} {entry : PendingQuery}
    (settles : Settles s source data transaction entry) :
    ∃ before after, s.books.pending = before ++ (transaction, entry) :: after ∧
      (runAll s (receive source data)).books.pending = before ++ after := by
  obtain ⟨pending, rfl, inTime, body, reply, decoded, isReply⟩ := settles
  have answers : Answers (Event.run s (.read entry.address data)) .finish transaction entry reply :=
    ⟨inTime, rfl, body, inHand_read_iff.mpr ⟨rfl, decoded⟩, isReply⟩
  rw [receive, runAll_cons, runAll_cons, runAll_nil, answers.books_eq (sound_run h _) pending]
  exact exists_filter_bne_eq h.ids_nodup pending

/-- A datagram that settles no entry leaves the books as they are. -/
theorem books_receive_of_not_settles (h : s.books.Sound)
    (none : ∀ transaction entry, ¬ Settles s source data transaction entry) :
    (runAll s (receive source data)).books = s.books := by
  have effect := Event.effect (sound_run h (.read source data)) .finish
  rw [receive, runAll_cons, runAll_cons, runAll_nil]
  generalize (Event.finish.run (Event.run s (.read source data))).books = t at effect ⊢
  cases effect with
  | none => rfl
  | entered asks =>
      obtain ⟨draws, stream, ⟨⟩, -⟩ := asks
  | @answered _ transaction entry reply pending answers =>
      obtain ⟨inTime, -, body, inHand, isReply⟩ := answers
      obtain ⟨rfl, decoded⟩ := inHand_read_iff.mp inHand
      have settles : Settles s entry.address data transaction entry :=
        ⟨pending, rfl, inTime, body, reply, decoded, isReply⟩
      exact absurd settles (none transaction entry)
  | ended ends =>
      obtain ⟨-, ⟨other, -⟩ | other⟩ := ends <;> cases other

/-! ### Any datagram at any moment -/

/-- **What a node does with a datagram**, whatever it is, wherever it comes from and whatever has
happened to the node before. A query is answered with one datagram to where it came from, under the
same transaction id: a response of the method that was called, with the id of the server, or an
error. Anything else is not answered, and leaves the routing table and the server with its peers
and its secrets as they are; it removes the entry that it settles, if there is one, and otherwise
changes nothing in the books either. In a world of nodes the answer is put on the network, if there
is one, and nothing else is. -/
theorem reacts_to_every_datagram (node : Node) (start : Instant) (course : List Event)
    (source : Address) (data : Bytes) :
    let s := runAll (Traffic.start node start) course
    let s' := runAll s (receive source data)
    let sent := (s.node.receive s.now source data).2.answer.toList
    (∀ transaction sender query,
      Message.decode data s.books.method? = .ok ⟨transaction, .query sender query⟩ →
      (∃ body, AnswersTo s.node.server.localId query body ∧
        sent = [⟨s.node.address, source, (Message.mk transaction body).encode⟩]) ∧
      s'.books = s.books ∧ s'.node.server.localId = s.node.server.localId) ∧
    ((∀ transaction sender query,
      Message.decode data s.books.method? ≠ .ok ⟨transaction, .query sender query⟩) →
      sent = [] ∧ s'.node.table = s.node.table ∧ s'.node.server = s.node.server ∧
      (∀ transaction entry, Settles s source data transaction entry →
        ∃ before after, s.books.pending = before ++ (transaction, entry) :: after ∧
          s'.books.pending = before ++ after) ∧
      ((∀ transaction entry, ¬ Settles s source data transaction entry) → s'.books = s.books)) ∧
    ∀ (w : Simulation.World) (i : ℕ), w.node i = s.node → w.now = s.now →
      (w.takeDatagrams i [⟨source, s.node.address, data⟩]).network =
        sent.foldl Network.send w.network := by
  intro s s' sent
  have h : s.books.Sound := sound_runAll node start course
  refine ⟨fun transaction sender query hquery => ?_, fun hother => ?_, fun w i hnode hnow => ?_⟩
  · obtain ⟨body, table, server, answersTo, hid, hreceive⟩ :=
      Node.receive_of_query s.now source hquery
    refine ⟨⟨body, answersTo, ?_⟩, ?_, ?_⟩
    · simp only [sent, hreceive, Option.toList_some]
    · simp only [s', runAll_receive, hreceive, State.books]
    · simp only [s', runAll_receive, hreceive, hid]
  · obtain ⟨hanswer, transactions, hreceive⟩ :=
      Node.receive_of_other s.now source hother
    refine ⟨?_, ?_, ?_, fun transaction entry settles => settles.exists_removed h,
      books_receive_of_not_settles h⟩
    · simp only [sent, hanswer, Option.toList_none]
    · simp only [s', runAll_receive, hreceive]
    · simp only [s', runAll_receive, hreceive]
  · rw [Simulation.World.network_takeDatagrams, hnode, hnow]

/-- A node that has sent a ping answers a ping of somebody else's. A pong under its own transaction
id removes the entry if it comes from the address that was asked, and changes nothing if it comes
from anywhere else. -/
theorem reacts_to_ping_and_pongs :
    let asked : Address := .v4 ⟨10, 0, 0, 2⟩ 6881
    let other : Address := .v4 ⟨10, 0, 0, 3⟩ 6881
    let node := (Node.create ⟨0⟩ (.v4 ⟨10, 0, 0, 1⟩ 6881) {} 0 ⟨[], 2⟩).1
    let s := runAll (start node 0) [.ask asked .ping 1 ⟨[0, 1], 1⟩]
    let w : Simulation.World := { Simulation.World.empty {} with nodes := [s.node], now := s.now }
    let ping := (Message.mk [7] (.query ⟨9⟩ .ping)).encode
    let pong := (Message.mk [0, 1] (.response (.ping ⟨1⟩))).encode
    (Message.decode ping s.books.method? = .ok ⟨[7], .query ⟨9⟩ .ping⟩ ∧
      ∃ body, AnswersTo ⟨0⟩ .ping body ∧
        (w.takeDatagrams 0 [⟨other, s.node.address, ping⟩]).network =
          w.network.send ⟨s.node.address, other, (Message.mk [7] body).encode⟩) ∧
      s.books.pending.map Prod.fst = [[0, 1]] ∧
      (runAll s (receive asked pong)).books.pending = [] ∧
      (runAll s (receive other pong)).books = s.books := by
  intro asked other node s w ping pong
  have law := reacts_to_every_datagram node 0 [.ask asked .ping 1 ⟨[0, 1], 1⟩]
  have asks : Asks (start node 0) (.ask asked .ping 1 ⟨[0, 1], 1⟩) asked .ping 0 [0, 1] :=
    ⟨1, ⟨[0, 1], 1⟩, rfl, by decide +kernel⟩
  have hbooks : s.books.pending = [([0, 1], ⟨0, .ping, asked, 0 + node.settings.queryTimeout⟩)] :=
    congrArg Transactions.pending asks.books_eq.2.2.2
  have hping : Message.decode ping s.books.method? = .ok ⟨[7], .query ⟨9⟩ .ping⟩ := by
    decide +kernel
  have hpong : Message.decode pong s.books.method? = .ok ⟨[0, 1], .response (.ping ⟨1⟩)⟩ := by
    decide +kernel
  have hanswer : ∀ transaction sender query,
      Message.decode pong s.books.method? ≠ .ok ⟨transaction, .query sender query⟩ := by
    rw [hpong]
    rintro _ _ _ ⟨⟩
  refine ⟨⟨hping, ?_⟩, by rw [hbooks]; rfl, ?_, ?_⟩
  · obtain ⟨answered, -, network⟩ := law other ping
    obtain ⟨⟨body, answersTo, hsent⟩, -⟩ := answered _ _ _ hping
    have hnetwork := network w 0 rfl rfl
    rw [hsent] at hnetwork
    exact ⟨body, answersTo, hnetwork⟩
  · obtain ⟨-, -, -, removed, -⟩ := (law asked pong).2.1 hanswer
    have settles : Settles s asked pong [0, 1]
        ⟨0, .ping, asked, 0 + node.settings.queryTimeout⟩ :=
      ⟨hbooks ▸ List.mem_singleton_self _, rfl, by decide +kernel, _, _, hpong, rfl⟩
    obtain ⟨before, after, hsplit, hremoved⟩ := removed _ _ settles
    rw [hbooks] at hsplit
    cases before with
    | nil =>
        cases hsplit
        exact hremoved
    | cons first before => simp at hsplit
  · obtain ⟨-, -, -, -, kept⟩ := (law other pong).2.1 hanswer
    refine kept ?_
    rintro transaction entry ⟨pending, elsewhere, -⟩
    rw [hbooks, List.mem_singleton] at pending
    cases pending
    exact absurd elsewhere (by decide)

end Traffic

end Mainline
