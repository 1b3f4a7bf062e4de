import Mainline.Krpc.Message
import Mainline.Routing.Table
import Mainline.Server.PeerStore
import Mainline.Server.Token

/-!
# Answering queries

A node answers the queries of others from its routing table and from the peers that have been
announced to it. Every query also counts as a sign of life from its sender, which is offered to the
table without asking anyone.
-/

namespace Mainline

/-- What a node needs to answer queries, apart from its routing table. -/
structure Server where
  localId : Key
  secrets : TokenSecrets
  store : PeerStore
deriving Repr

namespace Server

/-- How many peers a response names at most. -/
def maxPeersPerResponse : Nat := 50

/-- A server with random secrets and no peers. -/
def create (localId : Key) (settings : Settings) (stream : ByteStream) : Server × ByteStream :=
  let (secrets, stream) := TokenSecrets.generate stream
  (⟨localId, secrets, .empty settings⟩, stream)

/-- The token to give to a node at this address. -/
def tokenFor (server : Server) (address : Address) : Bytes :=
  server.secrets.token address.ip

/-- May a node at this address announce itself with this token? -/
def isValidToken (server : Server) (address : Address) (token : Bytes) : Bool :=
  server.secrets.isValid address.ip token

/-- Changes the secret that tokens are made with. -/
def rotateSecret (server : Server) (stream : ByteStream) : Server × ByteStream :=
  let (secrets, stream) := server.secrets.rotate stream
  ({ server with secrets }, stream)

/-- The announced peers of a torrent, the latest first. -/
def storedPeers (server : Server) (now : Instant) (infoHash : Key) : List Address × Server :=
  let (peers, store) := server.store.peers now infoHash maxPeersPerResponse
  (peers, { server with store })

/-- Drops expired announcements. -/
def expirePeers (server : Server) (now : Instant) : Server :=
  { server with store := server.store.expire now }

/-- Takes an announcement. The peer is the host the query comes from, on the port named or, if it
is implied, the one the query comes from. -/
def announce (server : Server) (now : Instant) (source : Address) (infoHash : Key) (port : UInt16)
    (token : Bytes) (impliedPort : Bool) : Except Krpc.RemoteError Krpc.Response × Server :=
  if !server.isValidToken source token then
    (.error ⟨Krpc.RemoteError.protocolCode, "invalid token"⟩, server)
  else
    let port := if impliedPort then source.port else port
    if port = 0 then
      (.error ⟨Krpc.RemoteError.protocolCode, "invalid port"⟩, server)
    else
      let store := server.store.announce now infoHash (.ofIP source.ip port)
      (.ok (.announcePeer server.localId), { server with store })

/-- Answers a query, once its sender has been offered to the table. -/
def answer (server : Server) (table : Routing.Table) (now : Instant) (source : Address) :
    Krpc.Query → Except Krpc.RemoteError Krpc.Response × Server
  | .ping => (.ok (.ping server.localId), server)
  | .findNode target =>
    (.ok (.findNode server.localId (table.closestLive now target table.capacity)), server)
  | .getPeers infoHash =>
    let (peers, server) := server.storedPeers now infoHash
    let nodes := table.closestLive now infoHash table.capacity
    (.ok (.getPeers server.localId (server.tokenFor source) (some nodes)
      (if peers.isEmpty then none else some peers)), server)
  | .announcePeer infoHash port token impliedPort =>
    server.announce now source infoHash port token impliedPort

/-- Handles a query: offers its sender to the table and answers. -/
def handle (server : Server) (table : Routing.Table) (now : Instant) (source : Address)
    (sender : Key) (query : Krpc.Query) :
    Except Krpc.RemoteError Krpc.Response × Routing.Table × Server :=
  let table := (table.observe now (.active ⟨sender, source⟩ now)).1
  let (reply, server) := server.answer table now source query
  (reply, table, server)

end Server

end Mainline
