import Mainline.Krpc.Decode

/-!
# Failures of a node

Everything a node's operations can fail with. Some failures speak against the node that was asked,
others have local causes and say nothing about it.
-/

namespace Mainline

/-- Why an operation of a node failed. -/
inductive Error where
  /-- The network failed, in words. -/
  | io (text : String)
  | malformed (cause : Krpc.Malformed)
  /-- A response came to a query that nobody sent. -/
  | unsolicited
  /-- A key did not have twenty octets. -/
  | keyLength
  /-- No answer came in time. -/
  | timeout
  /-- The node that was asked refused. -/
  | remote (error : Krpc.RemoteError)
  /-- Too many queries wait for answers. -/
  | rateLimited
  /-- The node has been shut down. -/
  | shutdown
  /-- No node answered on joining the network. -/
  | bootstrapFailed
  /-- No node to join through is known. -/
  | noBootstrapNodes
deriving DecidableEq, Repr

namespace Error

/-- The wording of each failure. -/
def message : Error → String
  | io text => "io error: " ++ text
  | malformed cause => "malformed krpc message: " ++ cause.message
  | unsolicited => "no pending transaction for response"
  | keyLength => "invalid node id length"
  | timeout => "query timed out"
  | remote error => "remote error " ++ toString error.code.toInt ++ ": " ++ error.text
  | rateLimited => "too many pending queries"
  | shutdown => "dht is shut down"
  | bootstrapFailed => "bootstrap failed: no node responded"
  | noBootstrapNodes => "no bootstrap node could be resolved"

/-- Does the failure speak against the node that was asked? -/
def isNodeFailure : Error → Bool
  | timeout | remote _ | malformed _ => true
  | _ => false

/-- Why a datagram was refused, as a failure of the node. -/
def ofDecodeError : Krpc.DecodeError → Error
  | .malformed cause => malformed cause
  | .unsolicited => unsolicited

end Error

end Mainline
