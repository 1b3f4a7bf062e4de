import Mainline.Contact

/-!
# Messages

Nodes exchange queries, responses and errors, each in a datagram of its own. An answer repeats the
transaction id of the query it answers. A response does not say which method it is a response of;
that is known only to who sent the query.
-/

namespace Mainline.Krpc

/-- What a node can be asked for. -/
inductive Method where
  | ping
  | findNode
  | getPeers
  | announcePeer
deriving DecidableEq, Repr

namespace Method

/-- The name of a method on the wire. -/
def name : Method → String
  | ping => "ping"
  | findNode => "find_node"
  | getPeers => "get_peers"
  | announcePeer => "announce_peer"

/-- All methods. -/
def all : List Method := [ping, findNode, getPeers, announcePeer]

theorem mem_all (method : Method) : method ∈ all := by cases method <;> decide

/-- The method with this name. -/
def ofName? (name : Bytes) : Option Method :=
  all.find? fun method => ascii method.name == name

theorem ofName?_name (method : Method) : ofName? (ascii method.name) = some method := by
  cases method <;> decide

end Method

/-- A question to a node. -/
inductive Query where
  /-- Are you there? -/
  | ping
  /-- Which nodes near this key do you know? -/
  | findNode (target : Key)
  /-- Which peers of this torrent do you know, or nodes nearer to it? -/
  | getPeers (infoHash : Key)
  /-- I am a peer of this torrent, on this port or, if `impliedPort`, on the port this query comes
  from; `token` is what you gave me when I asked for peers. -/
  | announcePeer (infoHash : Key) (port : UInt16) (token : Bytes) (impliedPort : Bool)
deriving DecidableEq, Repr

def Query.method : Query → Method
  | ping => .ping
  | findNode _ => .findNode
  | getPeers _ => .getPeers
  | announcePeer .. => .announcePeer

/-- An answer to a query, with the id of the node that answers. -/
inductive Response where
  | ping (id : Key)
  | findNode (id : Key) (nodes : List Contact)
  | getPeers (id : Key) (token : Bytes) (nodes : Option (List Contact))
      (peers : Option (List Address))
  | announcePeer (id : Key)
deriving DecidableEq, Repr

namespace Response

/-- The id of the node that answers. -/
def id : Response → Key
  | ping id => id
  | findNode id _ => id
  | getPeers id .. => id
  | announcePeer id => id

def method : Response → Method
  | ping _ => .ping
  | findNode .. => .findNode
  | getPeers .. => .getPeers
  | announcePeer _ => .announcePeer

end Response

/-- The refusal of a query. -/
structure RemoteError where
  code : Int64
  text : String
deriving DecidableEq, Repr

/-- The code of a query that breaks the protocol. -/
def RemoteError.protocolCode : Int64 := 203

def RemoteError.message (error : RemoteError) : String :=
  "krpc error " ++ toString error.code.toInt ++ ": " ++ error.text

/-- What a message says. -/
inductive Body where
  | query (sender : Key) (query : Query)
  | response (response : Response)
  | error (error : RemoteError)
deriving DecidableEq, Repr

/-- A message, with the transaction id that ties a query and its answer together. -/
structure Message where
  transaction : Bytes
  body : Body
deriving DecidableEq, Repr

end Mainline.Krpc
