import Mainline.Activity
import Mainline.Lookup.Search

/-!
# Lookups

A lookup asks the same question of ever nearer nodes, a few at a time in rounds. What is asked and
what is gathered from the answers is the lookup's purpose: nodes near to a key, or the peers of a
torrent. Every node that answers is offered to the routing table, and a failure that speaks against
a node is counted against it.
-/

namespace Mainline

/-- What a lookup asks, and what it makes of the answers. -/
structure Purpose (σ : Type) where
  query : Krpc.Query
  /-- The nodes that an answer tells of, given what has been gathered before. -/
  nodes : σ → Krpc.Response → List Contact
  /-- What has been gathered once a contact has given an answer. -/
  gather : σ → Contact → Krpc.Response → σ

/-- A lookup of the nodes near to a key. -/
def Purpose.findNode (target : Key) : Purpose Unit where
  query := .findNode target
  nodes
    | _, .findNode _ nodes => nodes
    | _, _ => []
  gather _ _ _ := ()

/-- What is gathered about a torrent. -/
structure TorrentFindings where
  /-- Peers in the order in which they were discovered, each once. -/
  peers : List Address
  /-- The tokens that contacts gave, by contact, each at its latest. -/
  tokens : List (Contact × Bytes)

/-- Notes the token that a contact gave, instead of an earlier one. -/
def TorrentFindings.addToken (f : TorrentFindings) (contact : Contact) (token : Bytes) :
    TorrentFindings :=
  if f.tokens.any (·.1 == contact) then
    { f with
      tokens := f.tokens.map fun entry => if entry.1 = contact then (contact, token) else entry }
  else { f with tokens := f.tokens ++ [(contact, token)] }

/-- Notes a peer. -/
def TorrentFindings.addPeer (f : TorrentFindings) (peer : Address) : TorrentFindings :=
  if f.peers.contains peer then f else { f with peers := f.peers ++ [peer] }

/-- A lookup of the peers of a torrent. An empty token is as good as none. -/
def Purpose.getPeers (infoHash : Key) : Purpose TorrentFindings where
  query := .getPeers infoHash
  nodes
    | _, .getPeers _ _ (some nodes) _ => nodes
    | _, _ => []
  gather f contact
    | .getPeers _ token _ peers =>
      let f := if token.isEmpty then f else f.addToken contact token
      (peers.getD []).foldl TorrentFindings.addPeer f
    | _ => f

namespace Lookup

/-- The contact that a response comes from. -/
def responder (asked : Contact) (response : Krpc.Response) : Contact :=
  ⟨response.id, asked.address⟩

/-- What a reply says about the health of nodes, entered into the routing table. -/
def record (table : Routing.Table) (localId : Key) (now : Instant) (asked : Contact)
    (reply : Reply) : Routing.Table :=
  match reply with
  | .ok response =>
    if response.id = localId then table
    else (table.observe now (.active (responder asked response) now)).1
  | .error e => if e.isNodeFailure then table.markFailed asked.id else table

/-- Enters the replies of a round into the routing table, one after the other. -/
def recordAll (table : Routing.Table) (localId : Key) (now : Instant)
    (replies : List (Contact × Reply)) : Routing.Table :=
  replies.foldl (fun table (asked, reply) => record table localId now asked reply) table

/-- Makes what it can of a reply. -/
def absorb {σ : Type} (purpose : Purpose σ) (s : Search × σ) (asked : Contact) (reply : Reply) :
    Search × σ :=
  match reply with
  | .ok response =>
    if response.id = s.1.localId then s
    else
      (s.1.accept asked response.id (purpose.nodes s.2 response),
        purpose.gather s.2 (responder asked response) response)
  | .error _ => s

/-- Makes what it can of the replies of a round. -/
def absorbAll {σ : Type} (purpose : Purpose σ) (s : Search × σ)
    (replies : List (Contact × Reply)) : Search × σ :=
  replies.foldl (fun s (asked, reply) => absorb purpose s asked reply) s

/-- Searches for at most `rounds` more rounds, or until the node is shut down. -/
def run {σ : Type} (purpose : Purpose σ) : (rounds : Nat) → Search × σ → Activity (Search × σ)
  | 0, s => pure s
  | rounds + 1, (s, found) => do
    let node ← Activity.node
    if node.isClosed || s.isExhausted then return (s, found)
    let before := s.best?
    let (batch, next) := s.nextRound
    if batch.isEmpty then return (s, found)
    let replies ← Activity.askAll (batch.map fun c => (c.address, purpose.query))
    let replies := batch.zip replies
    Activity.modify fun node now =>
      { node with table := recordAll node.table node.localId now replies }
    let (s, found) := absorbAll purpose (next, found) replies
    if s.isStuck before then return (s, found)
    run purpose rounds (s, found)

/-- Where a lookup starts. -/
inductive Seeds where
  /-- With the nearest nodes of the routing table. -/
  | table
  /-- With these. -/
  | given (contacts : List Contact)

/-- Looks up a key. -/
def start {σ : Type} (target : Key) (purpose : Purpose σ) (nothing : σ) (seeds : Seeds) :
    Activity (Search × σ) := do
  let node ← Activity.node
  let s := Search.create target node.localId node.table.capacity node.settings.parallelism
  let seeds := match seeds with
    | .table => node.table.closest target s.wanted
    | .given contacts => contacts
  run purpose node.settings.maxRounds (s.hearOfAll seeds, nothing)

/-- Looks up the nodes near to a key. -/
def nodes (target : Key) (seeds : Seeds) : Activity Search := do
  return (← start target (.findNode target) () seeds).1

/-- Looks up the peers of a torrent near to a key, which usually is its info hash. -/
def peers (infoHash target : Key) (seeds : Seeds) : Activity (Search × TorrentFindings) :=
  start target (.getPeers infoHash) ⟨[], []⟩ seeds

end Lookup

end Mainline
