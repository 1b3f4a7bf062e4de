import Mainline.Upkeep

/-!
# What a node can be asked to do

Each request is an activity of the node that ends with a result. Requests that search or send fail
at once if the node has been shut down; those that were under way then end with what they have.
-/

namespace Mainline

/-- A request to a node. -/
inductive Request where
  /-- Join the network through the addresses the node knows of. -/
  | bootstrap
  /-- Which id answers at an address? -/
  | ping (address : Address)
  /-- Which nodes are near to a key? -/
  | findNode (target : Key)
  /-- Who is a peer of a torrent? -/
  | getPeers (infoHash : Key)
  /-- Tell the nodes near to a torrent that this host is a peer of it. -/
  | announce (infoHash : Key) (port : UInt16)
  /-- Send one query. -/
  | query (address : Address) (query : Krpc.Query)
  /-- Join the network through a contact. -/
  | join (contact : Contact)
  /-- Does a contact answer under its id? -/
  | probe (contact : Contact)
  /-- Offer a node to the routing table. -/
  | insert (node : Member)
  | refreshBucket (bucket : Fin 160)
  | refreshStale (threshold : Duration)
  /-- Look up the nodes near to a key. -/
  | lookupNodes (target : Key) (seeds : Lookup.Seeds)
  /-- Look up the peers of a torrent near to a key. -/
  | lookupPeers (infoHash target : Key) (seeds : Lookup.Seeds)

/-- What a lookup of the peers of a torrent found. -/
structure TorrentReport where
  peers : List Address
  tokens : List (Contact × Bytes)
  /-- The nearest contacts that answered. -/
  closest : List Contact

/-- How a lookup went. -/
structure LookupCounts where
  rounds : Nat
  /-- How many ids are not to be asked any more. -/
  asked : Nat
  /-- How many answers came. -/
  answers : Nat

/-- The result of a request. -/
inductive Result where
  | failed (error : Error)
  | finished
  | key (key : Key)
  | contacts (contacts : List Contact)
  | torrent (report : TorrentReport)
  | count (n : Nat)
  | response (response : Krpc.Response)
  | truth (b : Bool)
  | outcome (outcome : Routing.Outcome)
  | lookupNodes (contacts : List Contact) (counts : LookupCounts)
  | lookupPeers (report : TorrentReport) (counts : LookupCounts)

namespace Search

/-- How the lookup went. -/
def counts (s : Search) : LookupCounts :=
  ⟨s.rounds, s.asked.length, s.answers⟩

/-- What was found about a torrent. -/
def report (s : Search) (found : TorrentFindings) : TorrentReport :=
  ⟨found.peers, found.tokens, s.closest⟩

end Search

/-- Does `activity` unless the node has been shut down. -/
def unlessClosed (activity : Activity Result) : Activity Result := do
  let node ← Activity.node
  if node.isClosed then return .failed .shutdown else activity

/-- The announcements that follow from a lookup: one to each of the nearest contacts that gave a
token, with that token. -/
def TorrentReport.announcements (report : TorrentReport) (infoHash : Key) (port : UInt16) :
    List (Address × Krpc.Query) :=
  (report.tokens.filter fun (contact, _) => report.closest.contains contact).map
    fun (contact, token) => (contact.address, .announcePeer infoHash port token false)

namespace Request

/-- Looks up a torrent and announces this host to the nearest nodes; how many accepted. -/
def announcing (infoHash : Key) (port : UInt16) : Activity Result := do
  let (search, found) ← Upkeep.lookupPeers infoHash
  let replies ← Activity.askAll ((search.report found).announcements infoHash port)
  return .count (replies.filter fun reply => reply matches .ok _).length

/-- An activity that ends with a crew or fails. -/
def withCrew (activity : Activity (Except Error Crew)) : Activity (Ending Result) := do
  match ← activity with
  | .error e => return .result (.failed e)
  | .ok crew => return .crew crew fun _ => .finished

/-- An activity that ends with a result. -/
def withResult (activity : Activity Result) : Activity (Ending Result) := do
  return .result (← activity)

/-- What a node does on a request. -/
def activity : Request → Activity (Ending Result)
  | bootstrap => withCrew Upkeep.bootstrap
  | join contact => withCrew (Upkeep.join contact)
  | refreshStale threshold => do
    return .crew (← Upkeep.refreshStale threshold) .count
  | ping address => withResult do
    match ← Activity.ping address with
    | .ok id => return .key id
    | .error e => return .failed e
  | findNode target => withResult <| unlessClosed do
    return .contacts (← Lookup.nodes target .table).closest
  | getPeers infoHash => withResult <| unlessClosed do
    let (search, found) ← Upkeep.lookupPeers infoHash
    return .torrent (search.report found)
  | announce infoHash port => withResult <| unlessClosed (announcing infoHash port)
  | query address question => withResult do
    match ← Activity.query address question with
    | .ok response => return .response response
    | .error e => return .failed e
  | probe contact => withResult do
    return .truth (← Activity.probe contact)
  | insert node => withResult do
    return .outcome (← Activity.insert node)
  | refreshBucket bucket => withResult do
    return .count (← Upkeep.refreshBucket bucket)
  | lookupNodes target seeds => withResult do
    let search ← Lookup.nodes target seeds
    return .lookupNodes search.closest search.counts
  | lookupPeers infoHash target seeds => withResult do
    let (search, found) ← Lookup.peers infoHash target seeds
    return .lookupPeers (search.report found) search.counts

end Request

end Mainline
