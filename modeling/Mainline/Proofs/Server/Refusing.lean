import Mainline.Proofs.Routing.Step
import Mainline.Proofs.Server.Run

/-!
# Queries that are refused

A server refuses a query with an error only if it announces a peer, and with a token that was not
made for the host it comes from, or at a port that nobody can be reached at. By then the sender has
been offered to the routing table already, but nothing has been done to the store: no sweep, no
torrent given up, no peer. So a refused query leaves what a ping leaves, also in the course of a
run: whoever replaces every query that is refused by a ping comes to the same server and the same
table, and has nothing refused any more.

## Main results

* `Server.handle_eq_error_iff`: which queries are refused.
* `Server.handle_of_error`: what a refused query leaves.
* `Server.refuses_bad_announcements_only`: both, in whatever state the server is.
* `Server.Event.runAll_pinged`: refused queries in the course of a run.
-/

namespace Mainline

namespace Server

variable {server : Server} {table : Routing.Table} {now : Instant} {source : Address} {sender : Key}
  {query : Krpc.Query} {error : Krpc.RemoteError}

/-! ### One query -/

/-- The server has reason to **refuse** the query from this address: it announces a peer with a
token that is not valid for the host it comes from, or at port 0. -/
inductive Refuses (server : Server) (source : Address) : Krpc.Query → Prop
  | token {infoHash : Key} {port : UInt16} {token : Bytes} {implied : Bool}
      (invalid : server.secrets.isValid source.ip token = false) :
      Refuses server source (.announcePeer infoHash port token implied)
  | port {infoHash : Key} {port : UInt16} {token : Bytes} {implied : Bool}
      (zero : (if implied then source.port else port) = 0) :
      Refuses server source (.announcePeer infoHash port token implied)

/-- **A query is refused exactly if there is reason to.** -/
theorem handle_eq_error_iff : (∃ error, (server.handle table now source sender query).1 =
    .error error) ↔ server.Refuses source query := by
  cases query with
  | ping | findNode | getPeers => exact iff_of_false (by rintro ⟨error, ⟨⟩⟩) (by rintro ⟨⟩)
  | announcePeer infoHash port token implied =>
      have taken := server.announce_taken now source infoHash port token implied
      simp only [handle, answer]
      generalize server.announce now source infoHash port token implied = result at taken ⊢
      cases taken with
      | invalid invalid => exact iff_of_true ⟨_, rfl⟩ (.token invalid)
      | unusable valid zero => exact iff_of_true ⟨_, rfl⟩ (.port zero)
      | kept valid usable =>
          refine iff_of_false (by rintro ⟨error, ⟨⟩⟩) ?_
          rintro (invalid | zero)
          · exact absurd valid (Bool.eq_false_iff.mp invalid)
          · exact usable zero

/-- A ping is answered, and leaves the server as it is. -/
theorem handle_ping : server.handle table now source sender .ping =
    (.ok (.ping server.localId), (table.observe now (.active ⟨sender, source⟩ now)).1, server) :=
  rfl

/-- **What a refused query leaves**: what a ping leaves. -/
theorem handle_of_error (refused : (server.handle table now source sender query).1 = .error error) :
    error.code = Krpc.RemoteError.protocolCode ∧
      (server.handle table now source sender query).2 =
        (server.handle table now source sender .ping).2 := by
  cases query with
  | ping | findNode | getPeers => cases refused
  | announcePeer infoHash port token implied =>
      have taken := server.announce_taken now source infoHash port token implied
      rw [handle_ping]
      simp only [handle, answer] at refused ⊢
      generalize server.announce now source infoHash port token implied = result
        at taken refused ⊢
      cases taken with
      | invalid | unusable =>
          cases refused
          exact ⟨rfl, rfl⟩
      | kept => cases refused

/-- **Only bad announcements are refused, and they leave what a ping leaves.** Whatever the server
has in store, and whatever table it works from, it refuses a query if and only if the query
announces a peer with a token that is not valid for the host it comes from, or at port 0, where the
port is the one the query comes from if it is implied. The error is then a protocol error, no
torrent and no secret of the server is touched, and the sender has been offered to the table as if
it had sent a ping, which is always answered. -/
theorem refuses_bad_announcements_only (server : Server) (table : Routing.Table) (now : Instant)
    (source : Address) (sender : Key) (query : Krpc.Query) :
    let handled := server.handle table now source sender query
    let pinged := server.handle table now source sender .ping
    ((∃ error, handled.1 = .error error) ↔
      ∃ infoHash port token implied, query = .announcePeer infoHash port token implied ∧
        (server.secrets.isValid source.ip token = false ∨
          (if implied then source.port else port) = 0)) ∧
    ∀ error, handled.1 = .error error →
      error.code = 203 ∧ handled.2.2 = server ∧
      pinged.1 = .ok (.ping server.localId) ∧ handled.2.1 = pinged.2.1 := by
  intro handled pinged
  refine ⟨handle_eq_error_iff.trans ⟨?_, ?_⟩, fun error refused => ?_⟩
  · rintro (invalid | zero)
    · exact ⟨_, _, _, _, rfl, .inl invalid⟩
    · exact ⟨_, _, _, _, rfl, .inr zero⟩
  · rintro ⟨infoHash, port, token, implied, rfl, invalid | zero⟩
    · exact .token invalid
    · exact .port zero
  · obtain ⟨hcode, hleft⟩ := handle_of_error refused
    exact ⟨hcode, congrArg Prod.snd hleft, rfl, congrArg Prod.fst hleft⟩

/-- A server with a full store refuses a token that it has given to another host, and port 0. The
store is what it was, and the table that a ping leaves knows the sender. -/
theorem refused_at_full_store :
    let key (n : ℕ) : Key := ⟨BitVec.ofNat 160 n⟩
    let known : Address := .v4 ⟨10, 0, 0, 2⟩ 6881
    let source (port : UInt16) : Address := .v4 ⟨10, 0, 0, 3⟩ port
    let table := Routing.Table.empty (key 0) 8 0
    let first := Snapshot.create (key 0) { maxInfoHashes := 1 } ⟨[], 2⟩ 0
    let announcement := Krpc.Query.announcePeer (key 5) 7000 (first.server.tokenFor known) false
    let s := Move.runAll first [.act (.handle table known (key 1) announcement), .wait 3]
    let stolen := Krpc.Query.announcePeer (key 6) 7000 (s.server.tokenFor known) false
    let implied := Krpc.Query.announcePeer (key 6) 7000 (s.server.tokenFor (source 0)) true
    s.server.store.size = 1 ∧
    ∀ sent ∈ [(source 6882, stolen), (source 0, implied)],
      let handled := s.server.handle table s.now sent.1 (key 2) sent.2
      let pinged := s.server.handle table s.now sent.1 (key 2) .ping
      (∃ error, handled.1 = .error error ∧ error.code = 203) ∧
      handled.2.2.store = s.server.store ∧ handled.2.1 = pinged.2.1 ∧
      pinged.2.1.members.map (·.id) = [key 2] := by
  intro key known source table first announcement s stolen implied
  refine ⟨by decide +kernel, fun sent given => ?_⟩
  have law := refuses_bad_announcements_only s.server table s.now sent.1 (key 2) sent.2
  have either : sent = (source 6882, stolen) ∨ sent = (source 0, implied) := by
    simpa only [List.mem_cons, List.not_mem_nil, or_false] using given
  have knows : (s.server.handle table s.now sent.1 (key 2) .ping).2.1.members.map (·.id) =
      [key 2] := by
    rcases either with rfl | rfl <;> decide +kernel
  have bad : ∃ error, (s.server.handle table s.now sent.1 (key 2) sent.2).1 = .error error := by
    refine law.1.mpr ?_
    rcases either with rfl | rfl
    · exact ⟨key 6, 7000, _, false, rfl, .inl (by decide +kernel)⟩
    · exact ⟨key 6, 7000, _, true, rfl, .inr rfl⟩
  obtain ⟨error, refused⟩ := bad
  obtain ⟨hcode, hserver, -, htable⟩ := law.2 error refused
  exact ⟨⟨error, refused, hcode⟩, congrArg Server.store hserver, htable, knows⟩

/-! ### Refused queries in the course of a run -/

/-- A server at work: the table that it works from, the instant that has been reached, and the
server. -/
structure Service extends Routing.Situation where
  server : Server

/-- What happens while a server is at work. -/
inductive Event where
  /-- It is sent a query. -/
  | query (source : Address) (sender : Key) (query : Krpc.Query)
  /-- It does something that leaves its table alone. -/
  | act (action : Action)
  /-- Something is done to its table, or time passes. -/
  | step (change : Routing.Step)

namespace Event

/-- The server at work after an event. -/
def run (s : Service) : Event → Service
  | .query source sender query =>
    let left := (s.server.handle s.table s.now source sender query).2
    { s with table := left.1, server := left.2 }
  | .act action => { s with server := action.run s.server s.now }
  | .step change => { s with toSituation := change.run s.toSituation }

/-- The server at work after several events. -/
def runAll (s : Service) (events : List Event) : Service :=
  events.foldl run s

/-- The event, with a ping in the place of a query that is refused. -/
def pinged (s : Service) : Event → Event
  | .query source sender query =>
    match (s.server.handle s.table s.now source sender query).1 with
    | .ok _ => .query source sender query
    | .error _ => .query source sender .ping
  | event => event

/-- The events, with a ping in the place of every query that is refused. -/
def pingedAll (s : Service) : List Event → List Event
  | [] => []
  | event :: events => event.pinged s :: pingedAll (event.run s) events

/-- A refused query leaves the server at work as a ping does. -/
theorem run_pinged (s : Service) (event : Event) : (event.pinged s).run s = event.run s := by
  cases event with
  | act | step => rfl
  | query source sender query =>
      rw [pinged]
      split
      · rfl
      · next error refused =>
          rw [run, run, (handle_of_error refused).2]

/-- **Refused queries may as well be pings**: so replaced, a run comes to the same server and the
same table. -/
theorem runAll_pinged (s : Service) (events : List Event) :
    runAll s (pingedAll s events) = runAll s events := by
  induction events generalizing s with
  | nil => rfl
  | cons event events ih =>
      calc runAll s (pingedAll s (event :: events))
          = runAll ((event.pinged s).run s) (pingedAll (event.run s) events) := rfl
        _ = runAll (event.run s) (pingedAll (event.run s) events) := by rw [run_pinged]
        _ = runAll s (event :: events) := ih _

/-- A ping is not refused, so it is not replaced. -/
theorem pinged_pinged (s : Service) (event : Event) :
    (event.pinged s).pinged s = event.pinged s := by
  cases event with
  | act | step => rfl
  | query source sender query =>
      rw [pinged]
      split
      · next reply answered => rw [pinged, answered]
      · rfl

/-- Nothing is refused any more in a run with pings in the place of refused queries. -/
theorem pingedAll_pingedAll (s : Service) (events : List Event) :
    pingedAll s (pingedAll s events) = pingedAll s events := by
  induction events generalizing s with
  | nil => rfl
  | cons event events ih =>
      rw [pingedAll, pingedAll, pinged_pinged, run_pinged, ih]

end Event

end Server

end Mainline
