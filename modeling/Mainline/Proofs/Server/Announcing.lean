import Mainline.Proofs.Server.Run

/-!
# What an announcement does

An announcement can fail to be kept, because its torrent has too many other peers, and it can push
out a whole torrent, because there are too many others. Nothing else happens: in every state that a
server can reach, all other fresh announcements stay, and in their order.

## Main results

* `PeerStore.Sound.freshPeers_announce`: the peers of the torrent that is announced for.
* `PeerStore.Sound.othersKept_announce`: the other torrents.
* `Server.stored_after_announce`: an announcement that a server accepts.
-/

namespace Mainline

namespace PeerStore

variable {store : PeerStore} {now : Instant} {h x : Key} {peer : Address}

/-- The fresh peers of a torrent other than one of them, the latest announced first. -/
def otherPeers (store : PeerStore) (now : Instant) (h : Key) (peer : Address) : List Address :=
  (store.freshPeers now h).filter (· != peer)

/-- The torrents other than `h` that the store holds. -/
def otherHeld (store : PeerStore) (now : Instant) (h : Key) : List Key :=
  (store.held now).filter (· != h)

theorem otherPeers_eq (store : PeerStore) (now : Instant) (h : Key) (peer : Address) :
    store.otherPeers now h peer =
      ((store.fresh now h).filter (·.peer != peer)).reverse.map (·.peer) := by
  rw [otherPeers, freshPeers, List.filter_map, List.filter_reverse]
  rfl

theorem length_otherPeers (store : PeerStore) (now : Instant) (h : Key) (peer : Address) :
    (store.otherPeers now h peer).length =
      ((store.fresh now h).filter (·.peer != peer)).length := by
  rw [otherPeers_eq, List.length_map, List.length_reverse]

theorem mem_otherHeld_iff : x ∈ store.otherHeld now h ↔ x ≠ h ∧ store.fresh now x ≠ [] := by
  rw [otherHeld, List.mem_filter, mem_held_iff, bne_iff_ne, and_comm]

/-- Nobody announces in advance: what has just been announced is fresh. -/
theorem isFresh_now (kept : store.lifetime ≠ 0) (peer : Address) :
    store.isFresh now ⟨peer, now⟩ = true := by
  simp [isFresh, elapsed, Nat.pos_iff_ne_zero, kept]

namespace Sound

variable (sound : store.Sound)
include sound

theorem nodup_otherPeers (now : Instant) (h : Key) (peer : Address) :
    (store.otherPeers now h peer).Nodup := by
  rw [otherPeers, freshPeers, List.map_reverse]
  have hfresh := (sound.nodup_peers h).sublist ((store.fresh_sublist now h).map _)
  exact (List.nodup_reverse.mpr hfresh).filter _

theorem nodup_otherHeld (now : Instant) (h : Key) : (store.otherHeld now h).Nodup :=
  (sound.nodup_keys.filter _).filter _

/-- There are never more other torrents than the bound allows, and fewer if the store knows the
torrent itself. -/
theorem length_otherHeld_lt (known : h ∈ store.keys) (now : Instant) :
    (store.otherHeld now h).length < store.maxInfoHashes := by
  have hother : (store.otherHeld now h).Sublist (store.keys.filter (· != h)) :=
    List.filter_sublist.filter _
  have hkeys : (store.keys.filter (· != h)).length < store.keys.length :=
    List.length_filter_lt_length_iff_exists.mpr ⟨h, known, by simp⟩
  rw [length_keys] at hkeys
  exact Nat.lt_of_le_of_lt hother.length_le (Nat.lt_of_lt_of_le hkeys sound.size_le)

omit sound in
/-- All torrents that the store holds are others, if it does not know the torrent. -/
theorem otherHeld_of_notMem (unknown : h ∉ store.keys) (now : Instant) :
    store.otherHeld now h = store.held now := by
  refine List.filter_eq_self.mpr fun x hx => bne_iff_ne.mpr ?_
  rintro rfl
  exact unknown (List.mem_of_mem_filter hx)

variable (positive : 0 < store.maxInfoHashes)
include positive

/-- **The peers of a torrent once one of them has been announced**: it comes first, before the
others, if there is room for it. -/
theorem freshPeers_announce (kept : store.lifetime ≠ 0) (now : Instant) (h : Key) (peer : Address) :
    (store.announce now h peer).freshPeers now h =
      if (store.otherPeers now h peer).length < store.maxPeersPerTorrent then
        peer :: store.otherPeers now h peer
      else store.otherPeers now h peer := by
  have hfresh : ((store.fresh now h).filter (·.peer != peer)).filter (store.isFresh now) =
      (store.fresh now h).filter (·.peer != peer) := by
    refine List.filter_eq_self.mpr fun a ha => ?_
    exact (List.mem_filter.mp (List.mem_of_mem_filter ha)).2
  rw [length_otherPeers, otherPeers_eq, freshPeers, PeerStore.fresh,
    sound.announcements_announce_self positive, isFresh_congr (store.limits_announce now h peer)]
  split
  · rw [List.filter_append, hfresh, List.filter_singleton, isFresh_now kept]
    simp
  · rw [hfresh]

/-- A peer for which there is no room is not kept, not even as it was announced before. -/
theorem notMem_announce (full : ¬(store.otherPeers now h peer).length < store.maxPeersPerTorrent) :
    peer ∉ ((store.announce now h peer).announcements h).map (·.peer) := by
  rw [length_otherPeers] at full
  rw [sound.announcements_announce_self positive, if_neg full]
  intro hmem
  obtain ⟨a, ha, heq⟩ := List.mem_map.mp hmem
  exact bne_iff_ne.mp (List.mem_filter.mp ha).2 heq

end Sound

/-- What an announcement for `h` leaves of other torrents: all of them, or all but the stalest if
there are as many as there may be. -/
inductive OthersKept (store : PeerStore) (now : Instant) (h : Key) (store' : PeerStore) : Prop
  | all (room : (store.otherHeld now h).length < store.maxInfoHashes)
      (kept : ∀ x ≠ h, store'.fresh now x = store.fresh now x)
  | allButOne {dropped : Key} (full : (store.otherHeld now h).length = store.maxInfoHashes)
      (held : dropped ∈ store.otherHeld now h)
      (oldest : ∀ x ∈ store.otherHeld now h, ∀ a ∈ store.fresh now dropped,
        ∃ b ∈ store.fresh now x, a.announced ≤ b.announced)
      (gone : store'.fresh now dropped = [])
      (kept : ∀ x, x ≠ h → x ≠ dropped → store'.fresh now x = store.fresh now x)

/-- **The other torrents** keep what is fresh of them, except for the stalest of too many. -/
theorem Sound.othersKept_announce (sound : store.Sound) (positive : 0 < store.maxInfoHashes)
    (now : Instant) (h : Key) (peer : Address) :
    OthersKept store now h (store.announce now h peer) := by
  have hlimits := store.limits_announce now h peer
  have hother : ∀ x ≠ h, (store.announce now h peer).announcements x =
      (store.roomFor now h).announcements x := fun x hx => announcements_announce_other peer hx
  rw [PeerStore.roomFor] at hother
  split at hother
  · next known =>
      refine .all (sound.length_otherHeld_lt (contains_iff.mp known) now) fun x hx => ?_
      exact fresh_congr hlimits (hother x hx)
  · next unknown =>
      have hheld := otherHeld_of_notMem (mt contains_iff.mpr unknown) now
      have hswept := announcements_expire sound.nodup_keys now
      have roomMade := sound.makeRoom_roomMade positive now
      generalize store.makeRoom now = room at roomMade hother
      cases roomMade with
      | enough room =>
          refine .all ?_ fun x hx => fresh_congr hlimits (hother x hx)
          exact hheld ▸ Nat.lt_of_le_of_lt (store.length_held_le now) room
      | swept room _ =>
          refine .all (hheld ▸ room) fun x hx => ?_
          exact fresh_of_announcements_eq hlimits ((hother x hx).trans (hswept x))
      | @evicted dropped full held oldest =>
          have herased := announcements_erase (store.expire now) dropped
          rw [← hheld] at full held oldest
          refine .allButOne full held oldest ?_ fun x hx hne => ?_
          · rw [fresh, hother dropped (mem_otherHeld_iff.mp held).1, herased, if_pos rfl,
              List.filter_nil]
          · refine fresh_of_announcements_eq hlimits ?_
            rw [hother x hx, herased, if_neg hne, hswept]

end PeerStore

namespace Server

/-- An announcement is answered with a response only if it is stored. -/
theorem store_of_handle_announcePeer {server server' : Server} {table table' : Routing.Table}
    {now : Instant} {source : Address} {sender infoHash : Key} {port : UInt16} {token : Bytes}
    {implied : Bool} {reply : Krpc.Response}
    (handled : server.handle table now source sender (.announcePeer infoHash port token implied) =
      (.ok reply, table', server')) :
    server'.store = server.store.announce now infoHash
      (.ofIP source.ip (if implied then source.port else port)) := by
  have taken := server.announce_taken now source infoHash port token implied
  simp only [handle, answer] at handled
  generalize server.announce now source infoHash port token implied = result at taken handled
  cases taken with
  | invalid | unusable => cases handled
  | kept =>
      cases handled
      rfl

/-- **What an announcement does to the store.** Take any server that keeps announcements for a
while, at any moment, and an announcement that it answers with a response. If there is room for the
peer, it is the first of its torrent from then on and the other fresh ones follow in the order they
had; if not, these stay and the peer is not stored. All other torrents keep what is fresh of them,
unless there are already as many with something fresh as the settings allow: then exactly one of
them goes, and none of its announcements is later than all those of another one.

Which one goes if several are equally stale is not said: by then the store may list its torrents in
any order. -/
theorem stored_after_announce (settings : Settings) (kept : settings.announceLifetime ≠ 0)
    (localId : Key) (stream : ByteStream) (events : List (Instant × Action)) (table : Routing.Table)
    (now : Instant) (source : Address) (sender infoHash : Key) (port : UInt16) (token : Bytes)
    (implied : Bool) (reply : Krpc.Response) (table' : Routing.Table) (server' : Server)
    (handled : ((create localId settings stream).1.runAll events).handle table now source sender
      (.announcePeer infoHash port token implied) = (.ok reply, table', server')) :
    let store := ((create localId settings stream).1.runAll events).store
    let peer := Address.ofIP source.ip (if implied then source.port else port)
    let others := (store.freshPeers now infoHash).filter (· != peer)
    let held := (store.held now).filter (· != infoHash)
    (others.Nodup ∧
      (others.length < settings.maxPeersPerTorrent →
        server'.store.freshPeers now infoHash = peer :: others ∧
          (server'.storedPeers now infoHash).1 = (peer :: others).take maxPeersPerResponse) ∧
      (settings.maxPeersPerTorrent ≤ others.length →
        server'.store.freshPeers now infoHash = others ∧
          peer ∉ (server'.store.announcements infoHash).map (·.peer))) ∧
    held.Nodup ∧ held.length ≤ max settings.maxInfoHashes 1 ∧
      (held.length < max settings.maxInfoHashes 1 →
        ∀ x ≠ infoHash, server'.store.fresh now x = store.fresh now x) ∧
      (held.length = max settings.maxInfoHashes 1 →
        ∃ dropped ∈ held,
          (∀ x ∈ held, ∀ a ∈ store.fresh now dropped,
            ∃ b ∈ store.fresh now x, a.announced ≤ b.announced) ∧
          server'.store.fresh now dropped = [] ∧
          ∀ x, x ≠ infoHash → x ≠ dropped → server'.store.fresh now x = store.fresh now x) := by
  have positive : 0 < (create localId settings stream).1.store.maxInfoHashes := Nat.le_max_right _ _
  obtain ⟨sound, hlimits⟩ := sound_runAll (PeerStore.sound_empty settings) positive events
  have hstore := store_of_handle_announcePeer handled
  generalize ((create localId settings stream).1.runAll events).store = store
    at sound hlimits hstore ⊢
  generalize Address.ofIP source.ip (if implied then source.port else port) = peer at hstore ⊢
  have hkept : store.lifetime ≠ 0 := (congrArg (·.1) hlimits).trans_ne kept
  have htorrents : store.maxInfoHashes = max settings.maxInfoHashes 1 := congrArg (·.2.1) hlimits
  have hpeers : store.maxPeersPerTorrent = settings.maxPeersPerTorrent := congrArg (·.2.2) hlimits
  replace positive : 0 < store.maxInfoHashes := htorrents ▸ positive
  have hself := sound.freshPeers_announce positive hkept now infoHash peer
  have hlooked := PeerStore.fst_peers server'.store now infoHash maxPeersPerResponse
  rw [← hpeers, ← htorrents]
  refine ⟨⟨sound.nodup_otherPeers now infoHash peer, fun room => ?_, fun full => ?_⟩,
    sound.nodup_otherHeld now infoHash, ?_⟩
  · have hfirst := hself.trans (if_pos room)
    rw [← hstore] at hfirst
    exact ⟨hfirst, hlooked.trans (congrArg (List.take maxPeersPerResponse) hfirst)⟩
  · have full := Nat.not_lt.mpr full
    rw [hstore]
    exact ⟨hself.trans (if_neg full), sound.notMem_announce positive full⟩
  · rw [hstore]
    cases sound.othersKept_announce positive now infoHash peer with
    | all room unchanged =>
        exact ⟨Nat.le_of_lt room, fun _ => unchanged, fun full => absurd full (Nat.ne_of_lt room)⟩
    | @allButOne dropped full hheld oldest gone unchanged =>
        exact ⟨Nat.le_of_eq full, fun room => absurd full (Nat.ne_of_lt room),
          fun _ => ⟨dropped, hheld, oldest, gone, unchanged⟩⟩

/-- A server with room for one torrent gives up the one it has for another. -/
theorem stored_after_announce_giving_up :
    let key (n : ℕ) : Key := ⟨BitVec.ofNat 160 n⟩
    let source : Address := .v4 ⟨10, 0, 0, 2⟩ 6881
    let settings : Settings := { maxInfoHashes := 1 }
    let table := Routing.Table.empty (key 0) 8 0
    let server := (create (key 0) settings ⟨[], 2⟩).1
    let query (n : ℕ) : Krpc.Query := .announcePeer (key n) 6881 (server.tokenFor source) false
    let before := server.runAll [(0, .handle table source (key 9) (query 1))]
    let handled := before.handle table 5 source (key 9) (query 2)
    before.store.held 5 = [key 1] ∧ handled.1 = .ok (.announcePeer (key 0)) ∧
      handled.2.2.store.freshPeers 5 (key 2) = [source] ∧
      handled.2.2.store.fresh 5 (key 1) = [] := by
  intro key source settings table server query before handled
  have hheld : before.store.held 5 = [key 1] := by decide +kernel
  have hreply : handled.1 = .ok (.announcePeer (key 0)) := by decide +kernel
  have law := stored_after_announce settings (by decide) (key 0) ⟨[], 2⟩
    [(0, .handle table source (key 9) (query 1))] table 5 source (key 9) (key 2) 6881
    (server.tokenFor source) false _ _ _ (Prod.ext hreply rfl)
  obtain ⟨⟨-, hself, -⟩, -, -, -, hothers⟩ := law
  obtain ⟨dropped, hdropped, -, gone, -⟩ := hothers (by decide +kernel)
  obtain rfl : dropped = key 1 :=
    List.mem_singleton.mp (hheld ▸ List.mem_of_mem_filter hdropped)
  exact ⟨hheld, hreply, (hself (by decide +kernel)).1.trans (by decide +kernel), gone⟩

end Server

end Mainline
