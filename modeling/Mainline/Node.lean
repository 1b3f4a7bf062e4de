import Mainline.Krpc.Encode
import Mainline.Server
import Mainline.Transactions

/-!
# Nodes

A node is its routing table, its server and its queries under way, together with what it has been
told to do: where to join the network, which torrents to keep looking up, and who is to hear of
peers.

`Node.receive` is all that a node does with a datagram: a query is answered, an answer is handed
over to the query that waits for it, and anything else is dropped.
-/

namespace Mainline

/-- A node of the network. -/
structure Node where
  localId : Key
  /-- The address it sends from and listens on. -/
  address : Address
  settings : Settings
  table : Routing.Table
  server : Server
  transactions : Transactions
  /-- Addresses to join through, before those of the settings. -/
  entryPoints : List Address
  /-- The torrents whose peers are looked up again and again. -/
  registered : List Key
  /-- The name of whoever is to hear of peers. -/
  listener : Option String
  /-- Are there background tasks that have not been waited for? -/
  hasTasks : Bool

/-- A datagram on its way. -/
structure Datagram where
  source : Address
  target : Address
  data : Bytes

namespace Node

/-- A node that knows nobody. -/
def create (localId : Key) (address : Address) (settings : Settings) (now : Instant)
    (secrets : ByteStream) : Node × ByteStream :=
  let (server, secrets) := Server.create localId settings secrets
  ({ localId, address, settings, server
     table := .empty localId settings.bucketCapacity now
     transactions := .create settings
     entryPoints := []
     registered := []
     listener := none
     hasTasks := false },
    secrets)

/-- Has the node been shut down? -/
def isClosed (node : Node) : Bool :=
  node.transactions.closed

/-- Is the node at work in the background? -/
def isRunning (node : Node) : Bool :=
  node.hasTasks && !node.isClosed

/-- The datagram that carries a query. -/
def queryDatagram (node : Node) (target : Address) (transaction : Bytes) (query : Krpc.Query) :
    Datagram :=
  ⟨node.address, target, (Krpc.Message.mk transaction (.query node.localId query)).encode⟩

/-- What follows from a datagram: the answer to send and the number of the query that has been
handed its own. -/
structure Reaction where
  answer : Option Datagram := none
  completed : Option Nat := none

/-- Deals with a message that has come from `source`. -/
def dealWith (node : Node) (now : Instant) (source : Address) : Krpc.Message → Node × Reaction
  | ⟨transaction, .query sender query⟩ =>
    let (reply, table, server) := node.server.handle node.table now source sender query
    let body : Krpc.Body := match reply with
      | .ok response => .response response
      | .error error => .error error
    let answer := (Krpc.Message.mk transaction body).encode
    ({ node with table, server }, { answer := some ⟨node.address, source, answer⟩ })
  | ⟨transaction, .response response⟩ =>
    let (transactions, completed) :=
      node.transactions.complete now source transaction (.ok response)
    ({ node with transactions }, { completed })
  | ⟨transaction, .error error⟩ =>
    let (transactions, completed) :=
      node.transactions.complete now source transaction (.error (.remote error))
    ({ node with transactions }, { completed })

/-- Takes a datagram: reads it, by the methods of the queries that wait, and deals with the
message. -/
def receive (node : Node) (now : Instant) (source : Address) (data : Bytes) : Node × Reaction :=
  match Krpc.Message.decode data node.transactions.method? with
  | .error _ => (node, {})
  | .ok message => node.dealWith now source message

/-- Adds an address to join through. -/
def addEntryPoint (node : Node) (address : Address) : Node :=
  if node.entryPoints.contains address then node
  else { node with entryPoints := node.entryPoints ++ [address] }

/-- The addresses to join through: those that were added and then those of the settings, of which
only addresses of version 4 count, each once. -/
def joinAddresses (node : Node) : List Address :=
  node.settings.bootstrapNodes.foldl
    (fun addresses text =>
      match Address.ofString? text with
      | some address =>
        if address.isV4 && !addresses.contains address then addresses ++ [address] else addresses
      | none => addresses)
    node.entryPoints

/-- Keeps a torrent in mind; says whether that is new. -/
def register (node : Node) (infoHash : Key) : Node × Bool :=
  if node.registered.contains infoHash then (node, false)
  else ({ node with registered := node.registered ++ [infoHash] }, true)

/-- Forgets about a torrent. -/
def deregister (node : Node) (infoHash : Key) : Node :=
  { node with registered := node.registered.filter (· != infoHash) }

end Node

end Mainline
