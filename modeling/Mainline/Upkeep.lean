import Mainline.Lookup

/-!
# Joining the network and keeping the table fresh

A node joins through another one by looking up its own id from there. That leaves the buckets for
nearby ids empty, so each of them is refreshed: a random id that belongs to it is looked up, and
the nodes that are found are offered to the routing table. Later, buckets that have not changed for
a while are refreshed in the same way. Several buckets are refreshed at once; such a group of
activities is a crew, and is the last thing that a task does.
-/

namespace Mainline

/-- Activities side by side. -/
structure Crew where
  /-- How many of them may be under way at once; no bound if absent. -/
  width : Option Nat
  jobs : List (Activity Nat)

/-- What is left to do when an activity is over: nothing, or the work of a crew, whose results are
added up. -/
inductive Ending (ρ : Type) where
  | result (r : ρ)
  | crew (crew : Crew) (finish : Nat → ρ)

namespace Upkeep

/-- Offers nodes to the routing table one after the other; how many are members then. -/
def insertAll : List Contact → Activity Nat
  | [] => pure 0
  | contact :: contacts => do
    let (_, now) ← Activity.nodeAndTime
    let outcome ← Activity.insert (.active contact now)
    let stored ← insertAll contacts
    return (if outcome.isStored then 1 else 0) + stored

/-- Refreshes a bucket; how many of the nodes that were found are members then. -/
def refreshBucket (i : Fin 160) : Activity Nat := do
  let node ← Activity.node
  let target ← Activity.sampleKey (node.table.bucketRegion i)
  let search ← Lookup.nodes target .table
  insertAll search.closest

/-- A crew that refreshes buckets, as many at once as the settings allow but one at least. -/
def refreshCrew (settings : Settings) (buckets : List (Fin 160)) : Crew where
  width := some (max settings.refreshConcurrency 1)
  jobs := buckets.map refreshBucket

/-- Refreshes the buckets that have members and have not changed for more than `threshold`. -/
def refreshStale (threshold : Duration) : Activity Crew := do
  let (node, now) ← Activity.nodeAndTime
  return refreshCrew node.settings (node.table.staleBuckets now threshold)

/-- Joins the network through a contact. Fails if the routing table is still empty after the
lookup; otherwise a crew goes on with the buckets that the lookup cannot reach. -/
def join (contact : Contact) : Activity (Except Error Crew) := do
  let node ← Activity.node
  let _ ← Lookup.nodes node.localId (.given [contact])
  let (node, now) ← Activity.nodeAndTime
  if node.table.isEmpty then return .error .bootstrapFailed
  let _ ← Activity.insert (.active contact now)
  let node ← Activity.node
  return .ok (refreshCrew node.settings node.table.emptyTail)

/-- Joins the network through the first of several addresses that works. -/
def joinThrough : List Address → Activity (Except Error Crew)
  | [] => pure (.error .bootstrapFailed)
  | address :: addresses => do
    match ← Activity.ping address with
    | .error .shutdown => return .error .shutdown
    | .error _ => joinThrough addresses
    | .ok id =>
      match ← join ⟨id, address⟩ with
      | .ok crew => return .ok crew
      | .error _ => joinThrough addresses

/-- Joins the network through the addresses that the node knows of. -/
def bootstrap : Activity (Except Error Crew) := do
  let node ← Activity.node
  match node.joinAddresses with
  | [] => return .error .noBootstrapNodes
  | addresses => joinThrough addresses

/-- Looks up the peers of a torrent and reports them, if there are any. -/
def lookupPeers (infoHash : Key) : Activity (Search × TorrentFindings) := do
  let (search, found) ← Lookup.peers infoHash infoHash .table
  if !found.peers.isEmpty then
    Activity.reportPeers infoHash found.peers
  return (search, found)

/-- A crew that looks up the peers of all torrents kept in mind, all at once. -/
def lookupRegistered : Activity Crew := do
  let node ← Activity.node
  return { width := none, jobs := node.registered.map fun infoHash => do
    let _ ← lookupPeers infoHash
    return 0 }

end Upkeep

end Mainline
