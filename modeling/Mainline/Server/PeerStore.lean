import Mainline.Address
import Mainline.Key
import Mainline.Settings

/-!
# Announced peers

A node keeps the peers that are announced to it, for each torrent in the order of their latest
announcements, and forgets an announcement after a while. Both the number of torrents and the
number of peers of each are bounded. When a new torrent would exceed its bound, expired
announcements are dropped first, and if that makes no room, the torrent whose latest announcement
is oldest, the first of several in the order in which the store came to know them.
-/

namespace Mainline

/-- A peer and when it was last announced. -/
structure Announcement where
  peer : Address
  announced : Instant
deriving DecidableEq, Repr

/-- The announced peers of each torrent. -/
structure PeerStore where
  /-- Torrents in the order in which they came, each with its announcements, oldest first. -/
  torrents : List (Key × List Announcement)
  maxInfoHashes : Nat
  maxPeersPerTorrent : Nat
  /-- How long an announcement is kept. -/
  lifetime : Duration
deriving Repr

namespace PeerStore

/-- A store without peers. It has room for one torrent at least. -/
def empty (settings : Settings) : PeerStore where
  torrents := []
  maxInfoHashes := max settings.maxInfoHashes 1
  maxPeersPerTorrent := settings.maxPeersPerTorrent
  lifetime := settings.announceLifetime

/-- Is the announcement still to be kept at `now`? -/
def isFresh (store : PeerStore) (now : Instant) (a : Announcement) : Bool :=
  decide (elapsed a.announced now < store.lifetime)

/-- The announcements of a torrent, oldest first. -/
def announcements (store : PeerStore) (infoHash : Key) : List Announcement :=
  (store.torrents.lookup infoHash).getD []

/-- The number of torrents in the store. -/
def size (store : PeerStore) : Nat :=
  store.torrents.length

/-- Does the store know the torrent? -/
def contains (store : PeerStore) (infoHash : Key) : Bool :=
  store.torrents.any (·.1 == infoHash)

/-- Drops a torrent. -/
def erase (store : PeerStore) (infoHash : Key) : PeerStore :=
  { store with torrents := store.torrents.filter (·.1 != infoHash) }

/-- Sets the announcements of a torrent, which comes last if it is new. -/
def set (store : PeerStore) (infoHash : Key) (announcements : List Announcement) : PeerStore :=
  if store.contains infoHash then
    { store with
      torrents := store.torrents.map fun (k, as) =>
        if k = infoHash then (k, announcements) else (k, as) }
  else
    { store with torrents := store.torrents ++ [(infoHash, announcements)] }

/-- Drops expired announcements, and torrents that have none left. -/
def expire (store : PeerStore) (now : Instant) : PeerStore :=
  { store with
    torrents := (store.torrents.map fun (k, as) => (k, as.filter (store.isFresh now))).filter
      fun (_, as) => !as.isEmpty }

/-- The instant of the latest of several announcements. -/
def latest? (as : List Announcement) : Option Instant :=
  (as.map (·.announced)).max?

/-- Is the latest announcement among `as` older than that among `bs`? Having none is older still. -/
def isStaler (as bs : List Announcement) : Bool :=
  match latest? as, latest? bs with
  | none, some _ => true
  | some a, some b => decide (a < b)
  | _, none => false

/-- The torrent whose latest announcement is oldest, the first of several. -/
def stalest? (store : PeerStore) : Option Key :=
  let pick (best : Option (Key × List Announcement)) (next : Key × List Announcement) :=
    match best with
    | none => some next
    | some best => if isStaler next.2 best.2 then some next else some best
  (store.torrents.foldl pick none).map (·.1)

/-- Makes room for one more torrent, if the store is full. -/
def makeRoom (store : PeerStore) (now : Instant) : PeerStore :=
  if store.size < store.maxInfoHashes then store
  else
    let store := store.expire now
    if store.size < store.maxInfoHashes then store
    else
      match store.stalest? with
      | some infoHash => store.erase infoHash
      | none => store

/-- Keeps the announcement of a peer, unless its torrent has too many others. An older
announcement of the same peer is dropped in any case. -/
def announce (store : PeerStore) (now : Instant) (infoHash : Key) (peer : Address) : PeerStore :=
  let store := if store.contains infoHash then store else store.makeRoom now
  let others := (store.announcements infoHash).filter fun a =>
    store.isFresh now a && a.peer != peer
  store.set infoHash <|
    if others.length < store.maxPeersPerTorrent then others ++ [⟨peer, now⟩] else others

/-- Up to `limit` peers of a torrent, the latest announced first, once expired announcements have
been dropped. -/
def peers (store : PeerStore) (now : Instant) (infoHash : Key) (limit : Nat) :
    List Address × PeerStore :=
  if store.contains infoHash then
    let fresh := (store.announcements infoHash).filter (store.isFresh now)
    let found := (fresh.reverse.take limit).map (·.peer)
    (found, if fresh.isEmpty then store.erase infoHash else store.set infoHash fresh)
  else
    ([], store)

end PeerStore

end Mainline
