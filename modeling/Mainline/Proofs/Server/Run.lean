import Mainline.Proofs.Server.Store
import Mainline.Server

/-!
# The run of a server

A server answers queries, changes its secret, sweeps its store and looks into it, in any order and
at any instants. Its state is what a list of such events makes of a new server. Whatever they are,
the store of announced peers stays sound and keeps the limits that the settings gave it.

Which of several stalest torrents the store gives up depends on the order in which it lists them, of
which nothing is promised. So it may come to list them in any other order between any two events.

## Main results

* `PeerStore.Sound.announcements_announce_self`: what an announcement makes of its torrent.
* `Server.announce_taken`: how a server takes an announcement.
* `Server.Action.effect`: what an action makes of the store.
* `Server.sound_runAll`: the store is sound at every moment of every run, and its limits stay.

Where it matters that time does not run backwards, a run is a list of `Server.Move`s: whatever the
server does happens at the instant that has been reached (`Server.Snapshot`), and time passes in
between.
-/

namespace Mainline

namespace PeerStore

variable {store : PeerStore} {now : Instant} {h x : Key}

/-! ### Announcements -/

section Announce

variable (sound : store.Sound) (positive : 0 < store.maxInfoHashes)
include sound positive

/-- **What an announcement makes of its torrent**: what is fresh of other peers stays in its order,
and the peer comes last if there is room for it. -/
theorem Sound.announcements_announce_self (now : Instant) (h : Key) (peer : Address) :
    (store.announce now h peer).announcements h =
      if ((store.fresh now h).filter (·.peer != peer)).length < store.maxPeersPerTorrent then
        (store.fresh now h).filter (·.peer != peer) ++ [⟨peer, now⟩]
      else (store.fresh now h).filter (·.peer != peer) := by
  have hothers : ((store.roomFor now h).announcements h).filter (fun a =>
      (store.roomFor now h).isFresh now a && a.peer != peer) =
        (store.fresh now h).filter (·.peer != peer) := by
    rw [sound.announcements_roomFor positive, isFresh_congr (store.limits_roomFor now h), fresh,
      List.filter_filter]
    simp only [Bool.and_comm]
  have hbound : (store.roomFor now h).maxPeersPerTorrent = store.maxPeersPerTorrent :=
    congrArg (·.2.2) (store.limits_roomFor now h)
  rw [← hothers, ← hbound]
  exact (announcements_set _ _ _ _).trans (if_pos rfl)

omit sound positive in
/-- An announcement touches other torrents only to make room for its own. -/
theorem announcements_announce_other (peer : Address) (hx : x ≠ h) :
    (store.announce now h peer).announcements x = (store.roomFor now h).announcements x :=
  (announcements_set _ _ _ _).trans (if_neg hx)

omit sound positive in
theorem limits_announce (store : PeerStore) (now : Instant) (h : Key) (peer : Address) :
    (store.announce now h peer).limits = store.limits :=
  (limits_set _ _ _).trans (store.limits_roomFor now h)

/-- An announcement keeps the store sound. -/
theorem Sound.announce (now : Instant) (h : Key) (peer : Address) :
    (store.announce now h peer).Sound := by
  obtain ⟨soundRoom, room⟩ := sound.roomFor positive now h
  have hself := sound.announcements_announce_self positive now h peer
  have hothers : (((store.fresh now h).filter (·.peer != peer)).map (·.peer)).Nodup := by
    refine (sound.nodup_peers h).sublist (List.Sublist.map _ ?_)
    exact List.filter_sublist.trans (store.fresh_sublist now h)
  have hnodup : (((store.announce now h peer).announcements h).map (·.peer)).Nodup := by
    rw [hself]
    split
    · rw [List.map_append]
      refine hothers.append (List.nodup_singleton peer) (List.disjoint_singleton.mpr ?_)
      intro hmem
      obtain ⟨a, ha, heq⟩ := List.mem_map.mp hmem
      exact bne_iff_ne.mp (List.mem_filter.mp ha).2 heq
    · exact hothers
  rw [show (store.announce now h peer).announcements h = _ from
    (announcements_set _ _ _ _).trans (if_pos rfl)] at hnodup
  exact soundRoom.set room hnodup

end Announce

/-! ### Looking into the store -/

/-- Whoever looks is told of the latest fresh peers. -/
theorem fst_peers (store : PeerStore) (now : Instant) (h : Key) (limit : ℕ) :
    (store.peers now h limit).1 = (store.freshPeers now h).take limit := by
  rw [peers, freshPeers]
  split
  · rw [← List.map_take]
    rfl
  · next absent =>
      rw [fresh_of_notMem (mt contains_iff.mpr absent), List.reverse_nil, List.map_nil,
        List.take_nil]

/-- Looking drops what has expired of the torrent that is looked for. -/
theorem announcements_peers (store : PeerStore) (now : Instant) (h x : Key) (limit : ℕ) :
    (store.peers now h limit).2.announcements x =
      if x = h then store.fresh now h else store.announcements x := by
  rw [peers]
  split
  · dsimp only
    split
    · next hempty =>
        have hnone : store.fresh now h = [] := List.isEmpty_iff.mp hempty
        rw [announcements_erase, hnone]
    · exact announcements_set _ _ _ _
  · next absent =>
      split
      · next heq =>
          have absent : h ∉ store.keys := mt contains_iff.mpr absent
          rw [heq, announcements_of_notMem absent, fresh_of_notMem absent]
      · rfl

theorem limits_peers (store : PeerStore) (now : Instant) (h : Key) (limit : ℕ) :
    (store.peers now h limit).2.limits = store.limits := by
  rw [peers]
  split
  · dsimp only
    split
    · rfl
    · exact store.limits_set h _
  · rfl

/-- Looking keeps the store sound. -/
theorem Sound.peers (sound : store.Sound) (now : Instant) (h : Key) (limit : ℕ) :
    (store.peers now h limit).2.Sound := by
  rw [PeerStore.peers]
  split
  · next present =>
      dsimp only
      split
      · exact sound.erase h
      · refine sound.set (.inl (contains_iff.mp present)) ?_
        exact (sound.nodup_peers h).sublist ((store.fresh_sublist now h).map _)
  · exact sound

/-- A new store is sound. -/
theorem sound_empty (settings : Settings) : (PeerStore.empty settings).Sound :=
  ⟨List.nodup_nil, Nat.zero_le _, fun _ => List.nodup_nil⟩

end PeerStore

/-! ### Runs -/

namespace Server

/-- What a server is asked to do, and what may happen to its store at any time. -/
inductive Action where
  /-- It handles a query, on behalf of a node with this routing table. -/
  | handle (table : Routing.Table) (source : Address) (sender : Key) (query : Krpc.Query)
  /-- It changes its secret, to what it draws from this stream. -/
  | rotate (stream : ByteStream)
  /-- It sweeps its store. -/
  | expire
  /-- It looks up the peers of a torrent. -/
  | look (infoHash : Key)
  /-- Its store comes to list its torrents in another order. -/
  | relist (order : PeerStore.Order)

/-- The server after it has done something at an instant. -/
def Action.run (server : Server) (now : Instant) : Action → Server
  | handle table source sender query => (server.handle table now source sender query).2.2
  | rotate stream => (server.rotateSecret stream).1
  | expire => server.expirePeers now
  | look infoHash => (server.storedPeers now infoHash).2
  | relist order =>
    { server with store := server.store.relist (order.list server.store.torrents) }

/-- The server after several actions, each at its instant. -/
def runAll (server : Server) (events : List (Instant × Action)) : Server :=
  events.foldl (fun server event => event.2.run server event.1) server

variable {server : Server}

/-- The ways of taking an announcement of a peer at this port of the host that it comes from. -/
inductive Taken (server : Server) (now : Instant) (source : Address) (infoHash : Key)
    (token : Bytes) (port : UInt16) : Except Krpc.RemoteError Krpc.Response × Server → Prop
  | invalid (invalid : server.isValidToken source token = false) :
      Taken server now source infoHash token port
        (.error ⟨Krpc.RemoteError.protocolCode, "invalid token"⟩, server)
  | unusable (valid : server.isValidToken source token = true) (zero : port = 0) :
      Taken server now source infoHash token port
        (.error ⟨Krpc.RemoteError.protocolCode, "invalid port"⟩, server)
  | kept (valid : server.isValidToken source token = true) (usable : port ≠ 0) :
      Taken server now source infoHash token port (.ok (.announcePeer server.localId),
        { server with store := server.store.announce now infoHash (.ofIP source.ip port) })

/-- **An announcement is taken in one of these ways.** -/
theorem announce_taken (server : Server) (now : Instant) (source : Address) (infoHash : Key)
    (port : UInt16) (token : Bytes) (implied : Bool) :
    Taken server now source infoHash token (if implied then source.port else port)
      (server.announce now source infoHash port token implied) := by
  rw [announce]
  dsimp only
  generalize (if implied then source.port else port) = port
  cases valid : server.isValidToken source token with
  | false => exact .invalid valid
  | true =>
      by_cases usable : port = 0
      · simp only [usable]
        exact .unusable valid rfl
      · simp only [usable]
        exact .kept valid usable

/-- The action **announces** a peer of a torrent: it is a query that does so, with a token that is
valid for its source and a port that is none but zero. -/
inductive Action.Announces (server : Server) (infoHash : Key) : Action → Address → Prop
  | handle {table : Routing.Table} {source : Address} {sender : Key} {port : UInt16} {token : Bytes}
      {implied : Bool} (valid : server.isValidToken source token = true)
      (usable : (if implied then source.port else port) ≠ 0) :
      Announces server infoHash
        (.handle table source sender (.announcePeer infoHash port token implied))
        (.ofIP source.ip (if implied then source.port else port))

/-- An action announces one peer of one torrent. -/
theorem Action.Announces.unique {h h' : Key} {action : Action} {peer peer' : Address}
    (announces : action.Announces server h peer) (other : action.Announces server h' peer') :
    h' = h ∧ peer' = peer := by
  cases announces
  cases other
  exact ⟨rfl, rfl⟩

/-- What an action makes of the store, and whether it announces a peer. -/
inductive Action.Effect (server : Server) (now : Instant) (action : Action) : PeerStore → Prop
  | same (silent : ∀ h peer, ¬ action.Announces server h peer) :
      Effect server now action server.store
  | swept (silent : ∀ h peer, ¬ action.Announces server h peer) :
      Effect server now action (server.store.expire now)
  | looked (silent : ∀ h peer, ¬ action.Announces server h peer) (infoHash : Key) (limit : ℕ) :
      Effect server now action (server.store.peers now infoHash limit).2
  | relisted (silent : ∀ h peer, ¬ action.Announces server h peer)
      {torrents : List (Key × List Announcement)} (order : torrents.Perm server.store.torrents) :
      Effect server now action (server.store.relist torrents)
  | announced {infoHash : Key} {peer : Address}
      (announces : action.Announces server infoHash peer) :
      Effect server now action (server.store.announce now infoHash peer)

/-- **An action changes the store in one of these ways**: it announces a peer, and the store takes
note, or it announces nobody. -/
theorem Action.effect (server : Server) (now : Instant) (action : Action) :
    Effect server now action (action.run server now).store := by
  cases action with
  | rotate stream => exact .same (by rintro _ _ ⟨⟩)
  | expire => exact .swept (by rintro _ _ ⟨⟩)
  | look infoHash => exact .looked (by rintro _ _ ⟨⟩) infoHash maxPeersPerResponse
  | relist order => exact .relisted (by rintro _ _ ⟨⟩) (order.perm _)
  | handle table source sender query =>
      rw [run, Server.handle]
      cases query with
      | ping | findNode => exact .same (by rintro _ _ ⟨⟩)
      | getPeers infoHash => exact .looked (by rintro _ _ ⟨⟩) infoHash maxPeersPerResponse
      | announcePeer infoHash port token implied =>
          have taken := server.announce_taken now source infoHash port token implied
          simp only [Server.answer]
          generalize server.announce now source infoHash port token implied = result at taken ⊢
          cases taken with
          | invalid invalid =>
              refine .same ?_
              rintro _ _ ⟨valid, usable⟩
              exact absurd valid (Bool.eq_false_iff.mp invalid)
          | unusable valid zero =>
              refine .same ?_
              rintro _ _ ⟨valid, usable⟩
              exact absurd zero usable
          | kept valid usable => exact .announced (.handle valid usable)

/-- An action keeps the store sound, and its limits. -/
theorem Action.sound_run (sound : server.store.Sound) (positive : 0 < server.store.maxInfoHashes)
    (now : Instant) (action : Action) :
    (action.run server now).store.Sound ∧
      (action.run server now).store.limits = server.store.limits := by
  have effect := action.effect server now
  generalize (action.run server now).store = store at effect ⊢
  cases effect with
  | same => exact ⟨sound, rfl⟩
  | swept => exact ⟨sound.expire now, rfl⟩
  | looked _ infoHash limit => exact ⟨sound.peers now infoHash limit, PeerStore.limits_peers ..⟩
  | relisted _ order => exact ⟨sound.relist order, rfl⟩
  | announced => exact ⟨sound.announce positive now _ _, PeerStore.limits_announce ..⟩

/-- **The store stays sound, and keeps its limits**, whatever the server does. -/
theorem sound_runAll (sound : server.store.Sound) (positive : 0 < server.store.maxInfoHashes)
    (events : List (Instant × Action)) :
    (server.runAll events).store.Sound ∧
      (server.runAll events).store.limits = server.store.limits := by
  induction events generalizing server with
  | nil => exact ⟨sound, rfl⟩
  | cons event events ih =>
      obtain ⟨soundFirst, hfirst⟩ := event.2.sound_run sound positive event.1
      have hpositive : 0 < (event.2.run server event.1).store.maxInfoHashes :=
        Nat.lt_of_lt_of_eq positive (congrArg (·.2.1) hfirst).symm
      obtain ⟨soundRest, hrest⟩ := ih soundFirst hpositive
      exact ⟨soundRest, hrest.trans hfirst⟩

/-- The secret that an action draws, if it changes the secret. -/
def Action.drawn? : Action → Option Bytes
  | rotate stream => some (stream.take TokenSecrets.secretLength).1
  | handle .. | expire | look _ | relist _ => none

/-- What an action makes of a server, its store apart. -/
theorem Action.run_eq (server : Server) (now : Instant) (action : Action) :
    action.run server now = { server with
      secrets := action.drawn?.elim server.secrets (⟨·, server.secrets.current⟩)
      store := (action.run server now).store } := by
  cases action with
  | rotate stream | expire | look infoHash | relist order => rfl
  | handle table source sender query =>
      rw [run, Server.handle]
      cases query with
      | ping | findNode | getPeers => rfl
      | announcePeer infoHash port token implied =>
          have taken := server.announce_taken now source infoHash port token implied
          simp only [Server.answer]
          generalize server.announce now source infoHash port token implied = result at taken ⊢
          cases taken <;> rfl

theorem Action.localId_run (server : Server) (now : Instant) (action : Action) :
    (action.run server now).localId = server.localId := by
  rw [run_eq]

theorem Action.secrets_run (server : Server) (now : Instant) (action : Action) :
    (action.run server now).secrets =
      action.drawn?.elim server.secrets (⟨·, server.secrets.current⟩) := by
  rw [run_eq]

/-! ### Runs by the clock -/

/-- A server and the instant that has been reached. -/
structure Snapshot where
  server : Server
  now : Instant

/-- What happens to a server: it does something, or time passes. -/
inductive Move where
  | act (action : Action)
  | wait (duration : Duration)

/-- The snapshot after a move. -/
def Move.run (s : Snapshot) : Move → Snapshot
  | act action => { s with server := action.run s.server s.now }
  | wait duration => { s with now := s.now + duration }

/-- The snapshot after several moves. -/
def Move.runAll (s : Snapshot) (moves : List Move) : Snapshot :=
  moves.foldl Move.run s

/-- A server that has just been created. -/
def Snapshot.create (localId : Key) (settings : Settings) (stream : ByteStream) (start : Instant) :
    Snapshot :=
  ⟨(Server.create localId settings stream).1, start⟩

@[simp] theorem Move.runAll_nil (s : Snapshot) : Move.runAll s [] = s := rfl

@[simp] theorem Move.runAll_cons (s : Snapshot) (move : Move) (moves : List Move) :
    Move.runAll s (move :: moves) = Move.runAll (move.run s) moves := rfl

@[simp] theorem Move.runAll_append (s : Snapshot) (xs ys : List Move) :
    Move.runAll s (xs ++ ys) = Move.runAll (Move.runAll s xs) ys := by
  simp [Move.runAll]

/-- The store of a snapshot is **in order**: it is sound, and has room for a torrent. -/
structure Snapshot.InOrder (s : Snapshot) : Prop where
  sound : s.server.store.Sound
  positive : 0 < s.server.store.maxInfoHashes

theorem Snapshot.inOrder_create (localId : Key) (settings : Settings) (stream : ByteStream)
    (start : Instant) : (Snapshot.create localId settings stream start).InOrder :=
  ⟨PeerStore.sound_empty settings, Nat.le_max_right _ _⟩

/-- A move keeps the store in order, and its limits. -/
theorem Snapshot.InOrder.run {s : Snapshot} (h : s.InOrder) (move : Move) :
    (move.run s).InOrder ∧ (move.run s).server.store.limits = s.server.store.limits := by
  cases move with
  | wait duration => exact ⟨⟨h.sound, h.positive⟩, rfl⟩
  | act action =>
      obtain ⟨sound, hlimits⟩ := action.sound_run h.sound h.positive s.now
      have hbound : ((Move.act action).run s).server.store.maxInfoHashes =
          s.server.store.maxInfoHashes := congrArg (·.2.1) hlimits
      exact ⟨⟨sound, hbound ▸ h.positive⟩, hlimits⟩

/-- Moves keep the store in order, and its limits. -/
theorem Snapshot.InOrder.runAll {s : Snapshot} (h : s.InOrder) (moves : List Move) :
    (Move.runAll s moves).InOrder ∧
      (Move.runAll s moves).server.store.limits = s.server.store.limits := by
  induction moves generalizing s with
  | nil => exact ⟨h, rfl⟩
  | cons move moves ih =>
      obtain ⟨first, hfirst⟩ := h.run move
      obtain ⟨rest, hrest⟩ := ih first
      exact ⟨rest, hrest.trans hfirst⟩

/-- Time does not run backwards. -/
theorem Move.now_le_runAll (s : Snapshot) (moves : List Move) :
    s.now ≤ (Move.runAll s moves).now := by
  induction moves generalizing s with
  | nil => exact Int.le_refl _
  | cons move moves ih =>
      refine Int.le_trans ?_ (ih (move.run s))
      cases move with
      | act action => exact Int.le_refl _
      | wait duration => exact Int.le_add_of_nonneg_right (Int.natCast_nonneg duration)

end Server

end Mainline
