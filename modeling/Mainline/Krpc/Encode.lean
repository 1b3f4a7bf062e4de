import Mainline.Bencode.Encode
import Mainline.Contact.Packed
import Mainline.Krpc.Message
import Mainline.Text.Utf8

/-!
# Writing messages

A message is a dictionary: the transaction id under `t`, the kind under `y`, and under `a`, `r` or
`e` what it says. Contacts without a packed form are left out; a list of which none is left is
still sent.
-/

namespace Mainline.Krpc

open Bencode (Value)

/-- A dictionary with ASCII words as keys. -/
def record (fields : List (String × Value)) : Value :=
  .ofEntries (fields.map fun (name, value) => (ascii name, value))

/-- The arguments of a query. The flag for the implied port is sent only if it is set. -/
def Query.arguments (sender : Key) : Query → Value
  | ping => record [("id", .bytes sender.toBytes)]
  | findNode target => record [("id", .bytes sender.toBytes), ("target", .bytes target.toBytes)]
  | getPeers infoHash =>
    record [("id", .bytes sender.toBytes), ("info_hash", .bytes infoHash.toBytes)]
  | announcePeer infoHash port token impliedPort =>
    record <|
      [("id", .bytes sender.toBytes), ("info_hash", .bytes infoHash.toBytes),
        ("port", .int port.toNat.toInt64), ("token", .bytes token)] ++
      if impliedPort then [("implied_port", .int 1)] else []

/-- The fields of a response. -/
def Response.fields : Response → Value
  | ping id => record [("id", .bytes id.toBytes)]
  | announcePeer id => record [("id", .bytes id.toBytes)]
  | findNode id nodes =>
    record [("id", .bytes id.toBytes), ("nodes", .bytes (Contact.packAll nodes))]
  | getPeers id token nodes peers =>
    record <|
      [("id", .bytes id.toBytes), ("token", .bytes token)] ++
      (nodes.toList.map fun nodes => ("nodes", .bytes (Contact.packAll nodes))) ++
      (peers.toList.map fun peers =>
        ("values", .list ((peers.filterMap Address.pack?).map .bytes)))

/-- A message as a bencode value. -/
def Message.toValue (message : Message) : Value :=
  let transaction := ("t", .bytes message.transaction)
  match message.body with
  | .query sender query =>
    record [transaction, ("y", .bytes (ascii "q")), ("q", .bytes (ascii query.method.name)),
      ("a", query.arguments sender)]
  | .response response =>
    record [transaction, ("y", .bytes (ascii "r")), ("r", response.fields)]
  | .error error =>
    record [transaction, ("y", .bytes (ascii "e")),
      ("e", .list [.int error.code, .bytes (Utf8.encode error.text)])]

/-- The datagram that carries a message. -/
def Message.encode (message : Message) : Bytes :=
  Bencode.encode message.toValue

end Mainline.Krpc
