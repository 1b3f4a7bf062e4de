import Mainline.Bencode.Decode
import Mainline.Bencode.Field
import Mainline.Contact.Packed
import Mainline.Krpc.Message
import Mainline.Text.Quoted

/-!
# Reading messages

A datagram is read in two steps: first its envelope, which is the transaction id and the kind of
message, then its content. Unknown fields are ignored. Between the two steps the reader of a
response asks which method was called under its transaction id; it refuses a response to a query
that nobody sent.
-/

namespace Mainline.Krpc

open Bencode (Value FieldType)

/-- Why a datagram is not a message. -/
inductive Malformed where
  /-- It is not one bencode value. -/
  | bencode (cause : Bencode.DecodeError)
  /-- A field is missing or of the wrong type. -/
  | field (cause : Bencode.FieldError)
  /-- The field that should hold a key does not have twenty octets. -/
  | keyLength (field : Bytes)
  /-- The kind of message is none of the three. -/
  | unknownKind (name : Bytes)
  | unknownMethod (name : Bytes)
  | portOutOfRange (port : Int64)
  /-- Packed contacts of this many octets do not divide evenly. -/
  | contactsLength (length : Nat)
  /-- A packed peer has this many octets. -/
  | peerLength (length : Nat)
  | peerNotBytes
  | errorTooShort
  | errorCodeNotInteger
  | errorTextNotBytes
  /-- Any other cause, in words. -/
  | other (text : String)
deriving DecidableEq, Repr

/-- The wording of each cause. -/
def Malformed.message : Malformed → String
  | bencode cause => cause.message
  | field cause => cause.message
  | keyLength name => Utf8.decodeLossy name ++ " must be 20 bytes"
  | unknownKind name => "unknown message type " ++ Quoted.ofString (Utf8.decodeLossy name)
  | unknownMethod name => "unknown query " ++ Quoted.ofString (Utf8.decodeLossy name)
  | portOutOfRange port => "port " ++ toString port.toInt ++ " out of range"
  | contactsLength length =>
    "compact node info length " ++ toString length ++ " is not a multiple of 26"
  | peerLength length => "compact peer info must be 6 bytes, got " ++ toString length
  | peerNotBytes => "peer value is not a string"
  | errorTooShort => "error list too short"
  | errorCodeNotInteger => "error code is not an integer"
  | errorTextNotBytes => "error message is not a string"
  | other text => text

/-- Why a datagram is refused. -/
inductive DecodeError where
  | malformed (cause : Malformed)
  /-- It is a response to a query that nobody sent. -/
  | unsolicited
deriving DecidableEq, Repr

/-! ### Fields -/

/-- The content of a field that has to be there. -/
def require {α : Type} (dict : Value) (name : String) (type : FieldType α) : Except Malformed α :=
  (dict.require (ascii name) type).mapError .field

/-- The content of a field that may be absent. -/
def optional {α : Type} (dict : Value) (name : String) (type : FieldType α) :
    Except Malformed (Option α) :=
  (dict.optional (ascii name) type).mapError .field

/-- The key in a field. -/
def requireKey (dict : Value) (name : String) : Except Malformed Key := do
  match Key.ofBytes? (← require dict name .bytes) with
  | some key => return key
  | none => throw (.keyLength (ascii name))

/-- The contacts that are packed in a byte string. -/
def unpackContacts (s : Bytes) : Except Malformed (List Contact) :=
  match Contact.unpackAll? s with
  | some contacts => .ok contacts
  | none => .error (.contactsLength s.length)

/-- The peer that is packed in a byte string. -/
def unpackPeer : Value → Except Malformed Address
  | .bytes s =>
    match Address.unpack? s with
    | some address => .ok address
    | none => .error (.peerLength s.length)
  | _ => .error .peerNotBytes

/-! ### Contents -/

/-- The query of this method with the arguments in a dictionary. -/
def Query.ofArguments (method : Method) (args : Value) : Except Malformed Query := do
  match method with
  | .ping => return .ping
  | .findNode => return .findNode (← requireKey args "target")
  | .getPeers => return .getPeers (← requireKey args "info_hash")
  | .announcePeer =>
    let port ← require args "port" .int
    if 0 ≤ port.toInt ∧ port.toInt < 65536 then
      let infoHash ← requireKey args "info_hash"
      let token ← require args "token" .bytes
      let implied ← optional args "implied_port" .int
      return .announcePeer infoHash (UInt16.ofNat port.toInt.toNat) token (implied == some 1)
    else
      throw (.portOutOfRange port)

/-- The response of this method with the fields in a dictionary. -/
def Response.ofFields (method : Method) (fields : Value) : Except Malformed Response := do
  let id ← requireKey fields "id"
  match method with
  | .ping => return .ping id
  | .announcePeer => return .announcePeer id
  | .findNode => return .findNode id (← unpackContacts (← require fields "nodes" .bytes))
  | .getPeers =>
    let nodes ← (← optional fields "nodes" .bytes).mapM unpackContacts
    let peers ← (← optional fields "values" .list).mapM fun values => values.mapM unpackPeer
    let token ← require fields "token" .bytes
    return .getPeers id token nodes peers

/-- The error that the items of a list spell: a code and a text, and perhaps more. -/
def RemoteError.ofItems : List Value → Except Malformed RemoteError
  | .int code :: .bytes text :: _ => .ok ⟨code, Utf8.decodeLossy text⟩
  | .int _ :: _ :: _ => .error .errorTextNotBytes
  | _ :: _ :: _ => .error .errorCodeNotInteger
  | _ => .error .errorTooShort

/-! ### Messages -/

/-- The three kinds of message. -/
inductive Kind where
  | query
  | response
  | error
deriving DecidableEq, Repr

/-- The kind that stands under `y`. -/
def Kind.ofName? (name : Bytes) : Option Kind :=
  if name = ascii "q" then some query
  else if name = ascii "r" then some response
  else if name = ascii "e" then some error
  else none

/-- A message of which only transaction id and kind have been read. -/
structure Envelope where
  transaction : Bytes
  kind : Kind
  content : Value

/-- Reads transaction id and kind. -/
def Envelope.decode (data : Bytes) : Except Malformed Envelope := do
  let content ← (Bencode.decode data).mapError .bencode
  let transaction ← require content "t" .bytes
  let name ← require content "y" .bytes
  match Kind.ofName? name with
  | some kind => return ⟨transaction, kind, content⟩
  | none => throw (.unknownKind name)

/-- Reads the query in a message. -/
def Envelope.query (envelope : Envelope) : Except Malformed Body := do
  let name ← require envelope.content "q" .bytes
  match Method.ofName? name with
  | none => throw (.unknownMethod name)
  | some method =>
    let args ← require envelope.content "a" .dict
    let sender ← requireKey args "id"
    return .query sender (← Query.ofArguments method args)

/-- Reads the response in a message, knowing its method. -/
def Envelope.response (envelope : Envelope) (method : Method) : Except Malformed Body := do
  return .response (← Response.ofFields method (← require envelope.content "r" .dict))

/-- Reads the error in a message. -/
def Envelope.error (envelope : Envelope) : Except Malformed Body := do
  return .error (← RemoteError.ofItems (← require envelope.content "e" .list))

/-- Reads a datagram. `expected` says which method was called under a transaction id; it is asked
about responses only. -/
def Message.decode (data : Bytes) (expected : Bytes → Option Method) :
    Except DecodeError Message := do
  let envelope ← (Envelope.decode data).mapError .malformed
  let body ←
    match envelope.kind with
    | .query => envelope.query.mapError .malformed
    | .error => envelope.error.mapError .malformed
    | .response =>
      match expected envelope.transaction with
      | none => throw .unsolicited
      | some method => (envelope.response method).mapError .malformed
  return ⟨envelope.transaction, body⟩

/-- The transaction id about which reading a datagram asks: that of a response. -/
def askedFor? (data : Bytes) : Option Bytes :=
  match Envelope.decode data with
  | .ok envelope => if envelope.kind = .response then some envelope.transaction else none
  | .error _ => none

end Mainline.Krpc
