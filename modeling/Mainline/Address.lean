import Mainline.Bytes

/-!
# Addresses

A datagram is sent to an address, which is an IP address and a port. Addresses of version 6 also
carry the zone of a link-local host. What a token is bound to is the IP address alone.
-/

namespace Mainline

/-- An IP address of version 4, as its four octets. -/
structure IPv4 where
  a : UInt8
  b : UInt8
  c : UInt8
  d : UInt8
deriving DecidableEq, Repr

/-- An IP address of version 6, as eight groups of sixteen bits. -/
structure IPv6 where
  groups : Vector UInt16 8
deriving DecidableEq, Repr

/-- An IP address of either version. -/
inductive IP where
  | v4 (host : IPv4)
  | v6 (host : IPv6)
deriving DecidableEq, Repr

/-- Where a datagram comes from or goes to. -/
inductive Address where
  | v4 (host : IPv4) (port : UInt16)
  | v6 (host : IPv6) (port : UInt16) (zone : UInt32)
deriving DecidableEq, Repr

namespace Address

instance : Inhabited Address := ⟨v4 ⟨0, 0, 0, 0⟩ 0⟩

/-- The IP address, without port and zone. -/
def ip : Address → IP
  | v4 host _ => .v4 host
  | v6 host _ _ => .v6 host

def port : Address → UInt16
  | v4 _ port => port
  | v6 _ port _ => port

/-- Is this an address of version 4? -/
def isV4 : Address → Bool
  | v4 .. => true
  | v6 .. => false

/-- The address of a port on a host, outside any zone. -/
def ofIP (ip : IP) (port : UInt16) : Address :=
  match ip with
  | .v4 host => v4 host port
  | .v6 host => v6 host port 0

@[simp]
theorem ip_ofIP (host : IP) (p : UInt16) : (ofIP host p).ip = host := by
  cases host <;> rfl

@[simp]
theorem port_ofIP (host : IP) (p : UInt16) : (ofIP host p).port = p := by
  cases host <;> rfl

end Address

end Mainline
