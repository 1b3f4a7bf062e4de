import Mainline.Node

/-!
# Scripted nodes

A scripted node answers queries from a fixed stock of answers. It stands for the rest of the
network when the behaviour of a node is to be observed: it can stay silent, refuse, answer anything
at all, and take its time.
-/

namespace Mainline.Simulation

/-- What a scripted node does on a query. -/
inductive Behaviour where
  | silent
  | respond (response : Krpc.Response)
  | refuse (error : Krpc.RemoteError)
  /-- Sends these octets, with the transaction id in bencode between each two of them. -/
  | raw (pieces : List Bytes)

/-- A scripted node. -/
structure Responder where
  address : Address
  id : Key
  /-- The nodes it tells of, if any. -/
  nodes : Option (List Contact)
  token : Bytes
  peers : Option (List Address)
  /-- How long it takes to answer. -/
  delay : Duration
  /-- It tells of nodes only on questions about this region. -/
  region : Option Prefix
  /-- What it does on queries of a method instead of answering from its stock: one thing for each
  query in turn, the last one again and again. -/
  script : List (Krpc.Method × List Behaviour)

namespace Responder

/-- The nodes to tell of on a question about `key`. -/
def nodesFor (r : Responder) (key : Key) : Option (List Contact) :=
  match r.region with
  | none => r.nodes
  | some region => if region.contains key then r.nodes else some []

/-- The answer from the stock. -/
def stock (r : Responder) : Krpc.Query → Krpc.Response
  | .ping => .ping r.id
  | .findNode target => .findNode r.id ((r.nodesFor target).getD [])
  | .getPeers infoHash => .getPeers r.id r.token (r.nodesFor infoHash) r.peers
  | .announcePeer .. => .announcePeer r.id

/-- What it does on a query, and what it will do from then on. -/
def behave (r : Responder) (query : Krpc.Query) : Behaviour × Responder :=
  match r.script.lookup query.method with
  | none | some [] => (.respond (r.stock query), r)
  | some [last] => (last, r)
  | some (behaviour :: rest) =>
    (behaviour,
      { r with
        script := r.script.map fun (method, behaviours) =>
          if method = query.method then (method, rest) else (method, behaviours) })

/-- The octets to send, if any. -/
def reply (transaction : Bytes) : Behaviour → Option Bytes
  | .silent => none
  | .respond response => some (Krpc.Message.mk transaction (.response response)).encode
  | .refuse error => some (Krpc.Message.mk transaction (.error error)).encode
  | .raw pieces =>
    some ((pieces.intersperse (Bencode.encodeBytes transaction)).flatten)

end Responder

end Mainline.Simulation
