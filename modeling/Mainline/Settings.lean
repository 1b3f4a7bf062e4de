import Mainline.Address
import Mainline.Key.Prefix

/-!
# Settings of a node

Durations are whole milliseconds. The settings that bound something are kept as they are given;
the `with…` functions refuse the value zero where it would make a node useless.
-/

namespace Mainline

/-- A point in time, in milliseconds since an arbitrary origin. -/
abbrev Instant := Int

/-- A span of time in milliseconds. -/
abbrev Duration := Nat

/-- The time from `earlier` to `later`, zero if that lies ahead. -/
def elapsed (earlier later : Instant) : Duration :=
  (later - earlier).toNat

/-- How a node is set up. -/
structure Settings where
  /-- The address the node listens on. -/
  bind : Address := .v4 ⟨0, 0, 0, 0⟩ 6881
  /-- How many nodes a bucket of the routing table holds. -/
  bucketCapacity : Nat := 8
  /-- How many queries a lookup sends in a round. -/
  parallelism : Nat := 3
  /-- How long a query waits for its answer. -/
  queryTimeout : Duration := 10000
  /-- How many rounds a lookup takes at most. -/
  maxRounds : Nat := 20
  /-- How many queries may wait for answers at once. -/
  maxPending : Nat := 1024
  /-- How often stale buckets are looked for. -/
  refreshInterval : Duration := 300000
  /-- How long after its last change a populated bucket is stale. -/
  staleAfter : Duration := 900000
  /-- How many buckets are refreshed at once when a node joins. -/
  refreshConcurrency : Nat := 8
  /-- How often the token secret changes. -/
  tokenRotationInterval : Duration := 300000
  /-- How often the peers of registered torrents are looked up. -/
  peerLookupInterval : Duration := 300000
  /-- Where to join the network: addresses or names of hosts, each with a port. -/
  bootstrapNodes : List String :=
    ["router.bittorrent.com:6881", "dht.transmissionbt.com:6881", "router.utorrent.com:6881"]
  /-- How many announced peers are kept for a torrent. -/
  maxPeersPerTorrent : Nat := 1000
  /-- For how many torrents announced peers are kept. -/
  maxInfoHashes : Nat := 2000
  /-- How long an announced peer is kept. -/
  announceLifetime : Duration := 1800000
deriving DecidableEq, Repr

namespace Settings

def withQueryTimeout (settings : Settings) (timeout : Duration) : Settings :=
  { settings with queryTimeout := timeout }

/-- Replaces the nodes to join through; with none, only nodes added by address are used. -/
def withBootstrapNodes (settings : Settings) (nodes : List String) : Settings :=
  { settings with bootstrapNodes := nodes }

def withParallelism (settings : Settings) (queries : Nat) : Settings :=
  { settings with parallelism := max queries 1 }

def withMaxRounds (settings : Settings) (rounds : Nat) : Settings :=
  { settings with maxRounds := max rounds 1 }

def withBucketCapacity (settings : Settings) (nodes : Nat) : Settings :=
  { settings with bucketCapacity := max nodes 1 }

/-- Bounds what is kept of announced peers. -/
def withAnnounceLimits (settings : Settings) (infoHashes : Nat) (lifetime : Duration) : Settings :=
  { settings with maxInfoHashes := max infoHashes 1, announceLifetime := lifetime }

end Settings

/-- Who a node is: its id and its settings. -/
structure Identity where
  localId : Key
  settings : Settings

/-- An identity with a random id. -/
def Identity.generate (settings : Settings) (stream : ByteStream) : Identity × ByteStream :=
  let (localId, stream) := Key.sample stream
  (⟨localId, settings⟩, stream)

end Mainline
