import Mainline.Address.Text
import Mainline.Node

/-!
# A network in memory

Hosts that share a network in memory send each other datagrams without loss or delay. A datagram
waits at the address it was sent to until it is read; one to an address that nobody has bound is
dropped.
-/

namespace Mainline

/-- The addresses that are bound, each with the datagrams that wait there, oldest first. -/
structure Network where
  ports : List (Address × List Datagram)
  /-- The number of the last host that was given an address of its own. -/
  lastHost : Nat

namespace Network

/-- A network without hosts. -/
def empty : Network := ⟨[], 0⟩

/-- Has the address been bound? -/
def isBound (network : Network) (address : Address) : Bool :=
  network.ports.any (·.1 == address)

/-- Binds an address; fails, in words, if it has been bound already. -/
def bind (network : Network) (address : Address) : Except String Network :=
  if network.isBound address then .error (address.toString ++ " already bound")
  else .ok { network with ports := network.ports ++ [(address, [])] }

/-- The address of a host by its number. -/
def hostAddress (host : Nat) : Address :=
  let n := 0x0a000000 ||| host
  .v4 ⟨UInt8.ofNat (n >>> 24), UInt8.ofNat (n >>> 16), UInt8.ofNat (n >>> 8), UInt8.ofNat n⟩ 6881

/-- Binds the address of the next host whose address is free, trying at most `tries`. -/
def bindNext (network : Network) : (tries : Nat) → Address × Network
  | 0 => (hostAddress network.lastHost, network)
  | tries + 1 =>
    let host := network.lastHost + 1
    let network := { network with lastHost := host }
    let address := hostAddress host
    match network.bind address with
    | .ok network => (address, network)
    | .error _ => network.bindNext tries

/-- Binds a free address of the form `10.x.y.z:6881`. -/
def bindAny (network : Network) : Address × Network :=
  network.bindNext (network.ports.length + 1)

/-- Gives an address up, and what waits there. -/
def unbind (network : Network) (address : Address) : Network :=
  { network with ports := network.ports.filter (·.1 != address) }

/-- Sends a datagram. -/
def send (network : Network) (datagram : Datagram) : Network :=
  { network with
    ports := network.ports.map fun (address, inbox) =>
      if address = datagram.target then (address, inbox ++ [datagram]) else (address, inbox) }

/-- Reads everything that waits at an address. -/
def receive (network : Network) (address : Address) : List Datagram × Network :=
  ((network.ports.lookup address).getD [],
    { network with
      ports := network.ports.map fun (a, inbox) =>
        if a = address then (a, []) else (a, inbox) })

end Network

end Mainline
