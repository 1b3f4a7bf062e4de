import Mathlib.Data.List.Induction
import Mainline.Proofs.Server.Run

/-!
# What the store keeps

Announcements come, expire and are given up, and several operations work on the store of a server.
All that any of them does to the announcements of a torrent is to drop some and perhaps to put one
last, which has just been accepted (`Server.Action.recorded`). So the list of a torrent stays in
the order of time, and never names a peer that has not announced itself with a valid token; and
what it says of a peer is always its *latest* announcement (`Server.Announced`), because a peer that
announces itself again is dropped from its old place.

## Main results

* `Server.Action.recorded`: what an action makes of the announcements of a torrent.
* `Server.kept_runAll`: what holds of them after every run.
* `Server.store_keeps_latest_announcements`: the bounds and the order of the store, and whom a
  server names as peers.
-/

namespace Mainline

/-- Making room drops announcements at most. -/
theorem PeerStore.Sound.roomFor_sublist {store : PeerStore} (sound : store.Sound)
    (positive : 0 < store.maxInfoHashes) (now : Instant) (h x : Key) :
    ((store.roomFor now h).announcements x).Sublist (store.announcements x) := by
  rw [PeerStore.roomFor]
  split
  · exact .refl _
  · have roomMade := sound.makeRoom_roomMade positive now
    generalize store.makeRoom now = room at roomMade ⊢
    cases roomMade with
    | enough => exact .refl _
    | swept =>
        rw [announcements_expire sound.nodup_keys]
        exact store.fresh_sublist now x
    | evicted =>
        rw [announcements_erase, announcements_expire sound.nodup_keys]
        split
        · exact List.nil_sublist _
        · exact store.fresh_sublist now x

namespace Server

/-! ### One action -/

/-- What an action can make of the announcements of a torrent. -/
inductive Recorded (s : Snapshot) (action : Action) (x : Key) : List Announcement → Prop
  | kept {as : List Announcement} (sublist : as.Sublist (s.server.store.announcements x))
      (others : ∀ peer, action.Announces s.server x peer → ∀ a ∈ as, a.peer ≠ peer) :
      Recorded s action x as
  | added {as : List Announcement} {peer : Address}
      (sublist : as.Sublist (s.server.store.announcements x))
      (others : ∀ peer, action.Announces s.server x peer → ∀ a ∈ as, a.peer ≠ peer)
      (announces : action.Announces s.server x peer)
      (room : as.length < s.server.store.maxPeersPerTorrent) :
      Recorded s action x (as ++ [⟨peer, s.now⟩])

/-- Where nothing is announced, announcements may go. -/
theorem Recorded.of_sublist {s : Snapshot} {action : Action} {x : Key} {as : List Announcement}
    (silent : ∀ peer, ¬ action.Announces s.server x peer)
    (sublist : as.Sublist (s.server.store.announcements x)) : Recorded s action x as :=
  .kept sublist fun peer announces => absurd announces (silent peer)

/-- **What an action makes of the announcements of a torrent**: it drops some, among them those of
the peer that it announces, and puts that one last if there is room for it. -/
theorem Action.recorded {s : Snapshot} (h : s.InOrder) (action : Action) (x : Key) :
    Recorded s action x ((action.run s.server s.now).store.announcements x) := by
  obtain ⟨sound, positive⟩ := h
  have effect := action.effect s.server s.now
  generalize (action.run s.server s.now).store = store at effect ⊢
  cases effect with
  | same silent => exact .of_sublist (silent x) (.refl _)
  | swept silent =>
      refine .of_sublist (silent x) ?_
      rw [PeerStore.announcements_expire sound.nodup_keys]
      exact s.server.store.fresh_sublist s.now x
  | looked silent infoHash limit =>
      refine .of_sublist (silent x) ?_
      rw [PeerStore.announcements_peers]
      split
      · next heq => exact heq ▸ s.server.store.fresh_sublist s.now infoHash
      · exact .refl _
  | relisted silent order =>
      refine .of_sublist (silent x) ?_
      rw [PeerStore.announcements_relist order sound.nodup_keys]
  | @announced infoHash peer announces =>
      by_cases hx : x = infoHash
      · subst hx
        have sublist : ((s.server.store.fresh s.now x).filter (·.peer != peer)).Sublist
            (s.server.store.announcements x) :=
          List.filter_sublist.trans (s.server.store.fresh_sublist s.now x)
        have others : ∀ a ∈ (s.server.store.fresh s.now x).filter (·.peer != peer),
            a.peer ≠ peer := fun a ha => bne_iff_ne.mp (List.mem_filter.mp ha).2
        rw [sound.announcements_announce_self positive]
        split
        · next room =>
            refine .added sublist (fun other hother => ?_) announces room
            exact (announces.unique hother).2 ▸ others
        · refine .kept sublist fun other hother => ?_
          exact (announces.unique hother).2 ▸ others
      · refine .of_sublist (fun other hother => hx (announces.unique hother).1) ?_
        rw [PeerStore.announcements_announce_other _ hx]
        exact sound.roomFor_sublist positive s.now infoHash x

/-! ### Whole runs -/

/-- The **latest announcement** of a peer for a torrent in a run: the last move by which it has been
announced, and when that was. -/
def Announced (first : Snapshot) (moves : List Move) (infoHash : Key) (a : Announcement) : Prop :=
  ∃ before action after, moves = before ++ .act action :: after ∧
    action.Announces (Move.runAll first before).server infoHash a.peer ∧
    (Move.runAll first before).now = a.announced ∧
    ∀ between later rest, after = between ++ .act later :: rest →
      ¬ later.Announces (Move.runAll first (before ++ .act action :: between)).server infoHash
        a.peer

variable {first : Snapshot} {moves : List Move} {x : Key} {a : Announcement}

/-- It remains the latest until the peer is announced again. -/
theorem Announced.concat (announced : Announced first moves x a) {move : Move}
    (other : ∀ action, move = .act action →
      ¬ action.Announces (Move.runAll first moves).server x a.peer) :
    Announced first (moves ++ [move]) x a := by
  obtain ⟨before, action, after, rfl, announces, hnow, latest⟩ := announced
  refine ⟨before, action, after ++ [move], by simp, announces, hnow, ?_⟩
  intro between later rest hafter
  rcases List.eq_nil_or_concat rest with rfl | ⟨rest, last, rfl⟩
  · obtain ⟨rfl, heq⟩ := List.append_inj' hafter rfl
    exact other later (List.singleton_inj.mp heq)
  · rw [List.concat_eq_append, ← List.cons_append, ← List.append_assoc] at hafter
    exact latest between later rest (List.append_inj' hafter rfl).1

/-- A peer that has just been announced has been announced now. -/
theorem announced_now {action : Action} {peer : Address}
    (announces : action.Announces (Move.runAll first moves).server x peer) :
    Announced first (moves ++ [.act action]) x ⟨peer, (Move.runAll first moves).now⟩ := by
  refine ⟨moves, action, [], rfl, announces, rfl, fun between later rest hafter => ?_⟩
  simp at hafter

/-- Announcements lie in the past. -/
theorem Announced.le_now (announced : Announced first moves x a) :
    a.announced ≤ (Move.runAll first moves).now := by
  obtain ⟨before, action, after, rfl, -, hnow, -⟩ := announced
  rw [← hnow, Move.runAll_append]
  exact Move.now_le_runAll _ _

/-- The port of a peer is none but zero. -/
theorem Announced.port_ne_zero (announced : Announced first moves x a) : a.peer.port ≠ 0 := by
  obtain ⟨before, action, after, -, announces, -⟩ := announced
  generalize a.peer = peer at announces
  cases announces with
  | handle valid usable => rwa [Address.port_ofIP]

/-- What a store **keeps** after a run from `first`: not too many announcements of a torrent, in the
order of time, each the latest of its peer. -/
structure Kept (first : Snapshot) (moves : List Move) : Prop where
  length_le : ∀ x, ((Move.runAll first moves).server.store.announcements x).length ≤
    (Move.runAll first moves).server.store.maxPeersPerTorrent
  ordered : ∀ x, ((Move.runAll first moves).server.store.announcements x).Pairwise
    (·.announced ≤ ·.announced)
  announced : ∀ x, ∀ a ∈ (Move.runAll first moves).server.store.announcements x,
    Announced first moves x a

/-- Time that passes changes nothing. -/
theorem Kept.wait (kept : Kept first moves) (duration : Duration) :
    Kept first (moves ++ [.wait duration]) := by
  have hstore : (Move.runAll first (moves ++ [.wait duration])).server.store =
      (Move.runAll first moves).server.store := by
    simp only [Move.runAll_append, Move.runAll_cons, Move.runAll_nil, Move.run]
  refine ⟨?_, ?_, fun x a ha => ?_⟩
  · rw [hstore]
    exact kept.length_le
  · rw [hstore]
    exact kept.ordered
  · rw [hstore] at ha
    exact (kept.announced x a ha).concat nofun

/-- An action leaves the store in the same order. -/
theorem Kept.act (kept : Kept first moves) (h : (Move.runAll first moves).InOrder)
    (action : Action) : Kept first (moves ++ [.act action]) := by
  set s := Move.runAll first moves with hs
  have hrun : Move.runAll first (moves ++ [.act action]) = (Move.act action).run s := by
    simp only [Move.runAll_append, Move.runAll_cons, Move.runAll_nil, ← hs]
  have hbound : ((Move.act action).run s).server.store.maxPeersPerTorrent =
      s.server.store.maxPeersPerTorrent := congrArg (·.2.2) (h.run (.act action)).2
  -- What has been kept of a torrent is still the latest of its peers, since `action` announces none
  -- of them.
  have still : ∀ {x : Key} {as : List Announcement}, as.Sublist (s.server.store.announcements x) →
      (∀ peer, action.Announces s.server x peer → ∀ a ∈ as, a.peer ≠ peer) →
      ∀ a ∈ as, Announced first (moves ++ [.act action]) x a := by
    intro x as sublist others a ha
    refine (kept.announced x a (sublist.subset ha)).concat ?_
    rintro _ ⟨rfl⟩ announces
    exact others a.peer announces a ha rfl
  refine ⟨fun x => ?_, fun x => ?_, fun x => ?_⟩ <;> rw [hrun]
  all_goals
    have recorded := action.recorded h x
    rw [Move.run]
    generalize (action.run s.server s.now).store.announcements x = result at recorded ⊢
  · rw [← Move.run, hbound]
    cases recorded with
    | kept sublist others => exact Nat.le_trans sublist.length_le (kept.length_le x)
    | added sublist others announces room => rwa [List.length_append]
  · cases recorded with
    | kept sublist others => exact (kept.ordered x).sublist sublist
    | added sublist others announces room =>
        refine List.pairwise_append.mpr ⟨(kept.ordered x).sublist sublist, by simp, ?_⟩
        intro a ha b hb
        rw [List.mem_singleton.mp hb]
        exact (kept.announced x a (sublist.subset ha)).le_now
  · cases recorded with
    | kept sublist others => exact still sublist others
    | added sublist others announces room =>
        intro a ha
        rcases List.mem_append.mp ha with ha | ha
        · exact still sublist others a ha
        · rw [List.mem_singleton.mp ha]
          exact announced_now announces

/-- **What a store keeps after every run.** -/
theorem kept_runAll (h : first.InOrder) (new : first.server.store.torrents = [])
    (moves : List Move) : Kept first moves := by
  induction moves using List.reverseRecOn with
  | nil =>
      have hnone : ∀ x, first.server.store.announcements x = [] := by
        intro x
        rw [PeerStore.announcements, new, List.lookup_nil, Option.getD_none]
      refine ⟨fun x => ?_, fun x => ?_, fun x => ?_⟩ <;> rw [Move.runAll_nil, hnone] <;> simp
  | append_singleton moves move kept =>
      cases move with
      | wait duration => exact kept.wait duration
      | act action => exact kept.act (h.runAll moves).1 action

/-- **The store keeps the latest announcements**, within its bounds and in order. Take any server
and any run of it: queries of every kind from anywhere, changes of the secret, sweeps, looks into
the store, in any order and with any time between them, while the store comes to list its torrents
in any order at any time.

It knows no more torrents than its settings allow, each once, and of each no more peers than they
allow. No peer of a torrent is there twice; the announcements stand in the order of time, none lies
ahead, and no peer has port zero.

Whoever asks for the peers of a torrent is told of distinct ones, of fifty at most, the latest
announced first. Each has been announced with a valid token less than the lifetime of announcements
ago, and the order is that of their latest announcements. -/
theorem store_keeps_latest_announcements (localId : Key) (settings : Settings) (stream : ByteStream)
    (start : Instant) (moves : List Move) :
    let first := Snapshot.create localId settings stream start
    let s := Move.runAll first moves
    (s.server.store.size ≤ max settings.maxInfoHashes 1 ∧
      (s.server.store.torrents.map Prod.fst).Nodup ∧
      ∀ infoHash as, (infoHash, as) ∈ s.server.store.torrents →
        as.length ≤ settings.maxPeersPerTorrent ∧ (as.map (·.peer)).Nodup ∧
        as.Pairwise (·.announced ≤ ·.announced) ∧
        ∀ a ∈ as, a.announced ≤ s.now ∧ a.peer.port ≠ 0) ∧
    ∀ infoHash,
      let peers := (s.server.storedPeers s.now infoHash).1
      peers.Nodup ∧ peers.length ≤ 50 ∧
      ∃ listed : List Announcement, peers = listed.map (·.peer) ∧
        listed.Pairwise (fun a b => b.announced ≤ a.announced) ∧
        ∀ a ∈ listed, Announced first moves infoHash a ∧ a.announced ≤ s.now ∧
          elapsed a.announced s.now < settings.announceLifetime := by
  intro first s
  have hfirst : first.InOrder := Snapshot.inOrder_create localId settings stream start
  obtain ⟨⟨sound, -⟩, hlimits⟩ := hfirst.runAll moves
  have kept := kept_runAll hfirst rfl moves
  have htorrents : s.server.store.maxInfoHashes = max settings.maxInfoHashes 1 :=
    congrArg (·.2.1) hlimits
  have hpeers : s.server.store.maxPeersPerTorrent = settings.maxPeersPerTorrent :=
    congrArg (·.2.2) hlimits
  have hlifetime : s.server.store.lifetime = settings.announceLifetime := congrArg (·.1) hlimits
  refine ⟨⟨htorrents ▸ sound.size_le, sound.nodup_keys, fun infoHash as hmem => ?_⟩,
    fun infoHash => ?_⟩
  · rw [← PeerStore.announcements_of_mem sound.nodup_keys hmem]
    refine ⟨hpeers ▸ kept.length_le infoHash, sound.nodup_peers infoHash, kept.ordered infoHash, ?_⟩
    intro a ha
    have announced := kept.announced infoHash a ha
    exact ⟨announced.le_now, announced.port_ne_zero⟩
  · have hfresh := s.server.store.fresh_sublist s.now infoHash
    have hlisted : ((s.server.store.fresh s.now infoHash).reverse.take maxPeersPerResponse).Sublist
        (s.server.store.fresh s.now infoHash).reverse := List.take_sublist _ _
    have hfound : (s.server.storedPeers s.now infoHash).1 =
        ((s.server.store.fresh s.now infoHash).reverse.take maxPeersPerResponse).map (·.peer) :=
      (PeerStore.fst_peers _ _ _ _).trans (List.map_take).symm
    have hnodup : ((s.server.store.fresh s.now infoHash).reverse.map (·.peer)).Nodup := by
      rw [List.map_reverse, List.nodup_reverse]
      exact (sound.nodup_peers infoHash).sublist (hfresh.map _)
    refine ⟨?_, ?_, _, hfound, ?_, fun a ha => ?_⟩
    · exact hfound ▸ hnodup.sublist (hlisted.map _)
    · rw [hfound, List.length_map, List.length_take]
      exact Nat.min_le_left _ _
    · refine List.Pairwise.sublist hlisted (List.pairwise_reverse.mpr ?_)
      exact (kept.ordered infoHash).sublist hfresh
    · have ha := List.mem_reverse.mp (hlisted.subset ha)
      have announced := kept.announced infoHash a (hfresh.subset ha)
      have hage := of_decide_eq_true (List.mem_filter.mp ha).2
      exact ⟨announced, announced.le_now, hlifetime ▸ hage⟩

/-- A peer that announces itself again comes first again, and a third one finds no room. -/
theorem store_keeps_peer_announced_again :
    let key (n : ℕ) : Key := ⟨BitVec.ofNat 160 n⟩
    let peer (port : UInt16) : Address := .v4 ⟨10, 0, 0, 2⟩ port
    let first := Snapshot.create (key 0) { maxPeersPerTorrent := 2 } ⟨[], 2⟩ 0
    let announcing (port : UInt16) : Move := .act (.handle (Routing.Table.empty (key 0) 8 0)
      (peer 6881) (key 9) (.announcePeer (key 1) port (first.server.tokenFor (peer 6881)) false))
    let moves := [announcing 1, .wait 5, announcing 2, .wait 5, announcing 1, announcing 3]
    let s := Move.runAll first moves
    (s.server.storedPeers s.now (key 1)).1 = [peer 1, peer 2] ∧
      s.server.store.torrents = [(key 1, [⟨peer 2, 5⟩, ⟨peer 1, 10⟩])] ∧
      ∃ listed : List Announcement, listed.map (·.peer) = [peer 1, peer 2] ∧
        ∀ a ∈ listed, Announced first moves (key 1) a := by
  intro key peer first announcing moves s
  have hpeers : (s.server.storedPeers s.now (key 1)).1 = [peer 1, peer 2] := by decide +kernel
  have htorrents : s.server.store.torrents = [(key 1, [⟨peer 2, 5⟩, ⟨peer 1, 10⟩])] := by
    decide +kernel
  have law := store_keeps_latest_announcements (key 0) { maxPeersPerTorrent := 2 } ⟨[], 2⟩ 0 moves
  obtain ⟨-, -, listed, hlisted, -, latest⟩ := law.2 (key 1)
  exact ⟨hpeers, htorrents, listed, hlisted.symm.trans hpeers, fun a ha => (latest a ha).1⟩

end Server

end Mainline
