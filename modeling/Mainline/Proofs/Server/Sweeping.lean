import Mathlib.Data.List.Infix
import Mainline.Proofs.Server.Contents

/-!
# Sweeps and looks go unnoticed

Sweeping the store and looking into it drop what has expired, so they change what a server stores;
but whoever asks the server cannot tell. To say so, a run is compared with the same run into which
sweeps and looks have been put wherever one likes: a list of `Server.Turn`s, of which some are the
run's own. The two go through snapshots that are `Server.Snapshot.Alike`, in which the stores
agree on what has not expired, and give the same answers.

The store may list its torrents in any order, and in another one at each turn (`Server.Watched`);
which of several stalest torrents it gives up is then up to a rule.

## Main results

* `Server.Action.agree_of_silent`: an action that announces nothing changes nothing but what has
  expired.
* `Server.Snapshot.Alike.answer?_eq`, `Server.Snapshot.Alike.run`: snapshots that are alike give the
  same answers and lead to snapshots that are alike.
* `Server.sweeps_and_looks_unnoticed`: the two runs give the same answers.
-/

namespace Mainline

namespace Server

variable {s s' s'' : Snapshot}

/-! ### Actions that announce nothing -/

/-- What an announcement makes of the store. -/
theorem Action.Announces.store_run {action : Action} {h : Key} {peer : Address}
    (announces : action.Announces s.server h peer) :
    (action.run s.server s.now).store = s.server.store.announce s.now h peer := by
  have effect := action.effect s.server s.now
  generalize (action.run s.server s.now).store = store at effect ⊢
  cases effect with
  | same silent | swept silent | looked silent | relisted silent =>
      exact absurd announces (silent h peer)
  | announced announces' =>
      obtain ⟨rfl, rfl⟩ := announces.unique announces'
      rfl

/-- **An action that announces nothing** changes nothing but what has expired. -/
theorem Action.agree_of_silent (sound : s.server.store.Sound) {action : Action}
    (silent : ∀ h peer, ¬ action.Announces s.server h peer) :
    PeerStore.Agree s.now s.server.store (action.run s.server s.now).store := by
  have effect := action.effect s.server s.now
  generalize (action.run s.server s.now).store = store at effect ⊢
  cases effect with
  | same => exact .refl _ _
  | swept => exact PeerStore.agree_expire sound s.now
  | looked _ infoHash limit => exact PeerStore.agree_peers _ _ infoHash limit
  | relisted _ order => exact PeerStore.agree_relist order sound s.now
  | announced announces => exact absurd announces (silent _ _)

/-! ### Snapshots that are alike -/

namespace Snapshot

/-- The snapshot with the torrents of the store in another order. -/
def relist (s : Snapshot) (torrents : List (Key × List Announcement)) : Snapshot :=
  { s with server := { s.server with store := s.server.store.relist torrents } }

/-- Two snapshots are **alike** if they differ at most in what their stores hold of expired
announcements, and in the order of torrents. -/
structure Alike (s s' : Snapshot) : Prop where
  now : s'.now = s.now
  localId : s'.server.localId = s.server.localId
  secrets : s'.server.secrets = s.server.secrets
  contents : PeerStore.Agree s.now s.server.store s'.server.store

theorem InOrder.relist (inOrder : s.InOrder) {torrents : List (Key × List Announcement)}
    (order : torrents.Perm s.server.store.torrents) : (s.relist torrents).InOrder :=
  ⟨inOrder.sound.relist order, inOrder.positive⟩

theorem InOrder.alike_relist (inOrder : s.InOrder) {torrents : List (Key × List Announcement)}
    (order : torrents.Perm s.server.store.torrents) : s.Alike (s.relist torrents) :=
  ⟨rfl, rfl, rfl, PeerStore.agree_relist order inOrder.sound s.now⟩

/-- A sweep, a look and the like leave a snapshot that is alike. -/
theorem InOrder.alike_run (inOrder : s.InOrder) {action : Action}
    (silent : ∀ h peer, ¬ action.Announces s.server h peer) (steady : action.drawn? = none) :
    s.Alike ((Move.act action).run s) := by
  have hsecrets := action.secrets_run s.server s.now
  rw [steady, Option.elim_none] at hsecrets
  exact ⟨rfl, action.localId_run s.server s.now, hsecrets,
    action.agree_of_silent inOrder.sound silent⟩

namespace Alike

theorem symm (alike : s.Alike s') : s'.Alike s :=
  ⟨alike.now.symm, alike.localId.symm, alike.secrets.symm, alike.now ▸ alike.contents.symm⟩

theorem trans (alike : s.Alike s') (alike' : s'.Alike s'') : s.Alike s'' :=
  ⟨alike'.now.trans alike.now, alike'.localId.trans alike.localId,
    alike'.secrets.trans alike.secrets, alike.contents.trans (alike.now ▸ alike'.contents)⟩

/-- What is announced to one is announced to the other. -/
theorem announces (alike : s.Alike s') {action : Action} {h : Key} {peer : Address}
    (announces : action.Announces s.server h peer) : action.Announces s'.server h peer := by
  cases announces with
  | handle valid usable =>
      refine .handle ?_ usable
      rwa [isValidToken, alike.secrets]

end Alike

end Snapshot

/-! ### Answers -/

/-- What an asker learns from a server. -/
inductive Answer where
  /-- A query is answered, and the table has come to know the sender. -/
  | reply (reply : Except Krpc.RemoteError Krpc.Response) (table : Routing.Table)
  /-- The peers of a torrent. -/
  | peers (peers : List Address)

/-- The answer that an action is for, if it is for one. -/
def Action.answer? (s : Snapshot) : Action → Option Answer
  | handle table source sender query =>
    let (reply, table, _) := s.server.handle table s.now source sender query
    some (.reply reply table)
  | look infoHash => some (.peers (s.server.storedPeers s.now infoHash).1)
  | rotate _ | expire | relist _ => none

namespace Snapshot.Alike

/-- **Snapshots that are alike give the same answers.** -/
theorem answer?_eq (alike : s.Alike s') (action : Action) :
    action.answer? s' = action.answer? s := by
  have hpeers := fun h => alike.contents.peers_eq h maxPeersPerResponse
  cases action with
  | rotate stream | expire | relist order => rfl
  | look infoHash => simp only [Action.answer?, storedPeers, alike.now, hpeers]
  | handle table source sender query =>
      cases query with
      | ping | findNode => simp only [Action.answer?, handle, answer, alike.now, alike.localId]
      | getPeers infoHash =>
          simp only [Action.answer?, handle, answer, storedPeers, tokenFor, alike.now,
            alike.localId, alike.secrets, hpeers]
          -- What remains is the test for emptiness, decided in two ways.
          congr
      | announcePeer infoHash port token implied =>
          simp only [Action.answer?, handle, answer, announce, isValidToken, alike.now,
            alike.localId, alike.secrets]
          generalize (if implied then source.port else port) = port
          split
          · rfl
          · split <;> rfl

/-- **Moves keep snapshots alike**, if both follow the same rule where one announces a peer. -/
theorem run {choose : (Key → List Announcement) → Option Key} (alike : s.Alike s')
    (inOrder : s.InOrder) (inOrder' : s'.InOrder) {move : Move}
    (chosen : ∀ action h peer, move = .act action → action.Announces s.server h peer →
      s.server.store.GivesUp choose s.now)
    (chosen' : ∀ action h peer, move = .act action → action.Announces s'.server h peer →
      s'.server.store.GivesUp choose s'.now) :
    (move.run s).Alike (move.run s') := by
  cases move with
  | wait duration =>
      have hle : s.now ≤ s.now + duration :=
        Int.le_add_of_nonneg_right (Int.natCast_nonneg duration)
      exact ⟨congrArg (· + (duration : ℤ)) alike.now, alike.localId, alike.secrets,
        alike.contents.later hle⟩
  | act action =>
      have contents : PeerStore.Agree s.now (action.run s.server s.now).store
          (action.run s'.server s'.now).store := by
        by_cases announcing : ∃ h peer, action.Announces s.server h peer
        · obtain ⟨h, peer, announces⟩ := announcing
          have announces' := alike.announces announces
          have gives' := chosen' action h peer rfl announces'
          rw [announces.store_run, announces'.store_run, alike.now]
          rw [alike.now] at gives'
          exact alike.contents.announce inOrder.sound inOrder'.sound inOrder.positive
            (chosen action h peer rfl announces) gives' h peer
        · have silent : ∀ h peer, ¬ action.Announces s.server h peer := fun h peer announces =>
            announcing ⟨h, peer, announces⟩
          have silent' : ∀ h peer, ¬ action.Announces s'.server h peer := fun h peer announces =>
            silent h peer (alike.symm.announces announces)
          have own := action.agree_of_silent inOrder.sound silent
          have own' := action.agree_of_silent inOrder'.sound silent'
          rw [alike.now] at own' ⊢
          exact own.symm.trans (alike.contents.trans own')
      refine ⟨alike.now, ?_, ?_, contents⟩
      · simp only [Move.run, Action.localId_run, alike.localId]
      · simp only [Move.run, Action.secrets_run, alike.secrets]

end Snapshot.Alike

/-! ### Runs with sweeps and looks put in -/

/-- A turn of a run: a move of its own, or a sweep or a look that has been put in. -/
inductive Turn where
  | own (move : Move)
  | sweep
  | look (infoHash : Key)

namespace Turn

/-- The move that is made. -/
def move : Turn → Move
  | own move => move
  | sweep => .act .expire
  | look infoHash => .act (.look infoHash)

/-- Is it a move of the run's own? -/
def isOwn : Turn → Bool
  | own _ => true
  | sweep | look _ => false

/-- The answer to a move of the run's own. -/
def answer? (s : Snapshot) : Turn → Option Answer
  | own (.act action) => action.answer? s
  | own (.wait _) | sweep | look _ => none

end Turn

theorem Snapshot.Alike.turn_answer?_eq (alike : s.Alike s') (turn : Turn) :
    turn.answer? s' = turn.answer? s := by
  cases turn with
  | sweep | look infoHash => rfl
  | own move =>
      cases move with
      | wait duration => rfl
      | act action => exact alike.answer?_eq action

/-- `Watched choose s turns answers last`: from `s`, the `turns` can lead to `last` and be given
these `answers`, if the store may list its torrents in any order before each turn, and gives up what
`choose` names where a peer is announced. -/
inductive Watched (choose : (Key → List Announcement) → Option Key) :
    Snapshot → List Turn → List Answer → Snapshot → Prop
  | done (s : Snapshot) : Watched choose s [] [] s
  | turn {s last : Snapshot} {torrents : List (Key × List Announcement)} {turn : Turn}
      {turns : List Turn} {answers : List Answer}
      (order : torrents.Perm s.server.store.torrents)
      (chosen : ∀ action h peer, turn.move = .act action →
        action.Announces (s.relist torrents).server h peer →
        (s.relist torrents).server.store.GivesUp choose s.now)
      (rest : Watched choose (turn.move.run (s.relist torrents)) turns answers last) :
      Watched choose s (turn :: turns) ((turn.answer? (s.relist torrents)).toList ++ answers) last

variable {choose : (Key → List Announcement) → Option Key} {turns : List Turn}

/-- The answers to the moves of a run's own. -/
def Turn.answersAll (s : Snapshot) : List Turn → List Answer
  | [] => []
  | turn :: turns => (turn.answer? s).toList ++ answersAll (turn.move.run s) turns

/-- The run that the server itself makes of the turns is among them, where it follows the rule. -/
theorem watched_runAll (follows : ∀ before ∈ (turns.map Turn.move).inits,
    (Move.runAll s before).server.store.GivesUp choose (Move.runAll s before).now) :
    Watched choose s turns (Turn.answersAll s turns) (Move.runAll s (turns.map Turn.move)) := by
  induction turns generalizing s with
  | nil => exact .done s
  | cons turn turns ih =>
      have hnow := follows [] ((List.mem_inits _ _).mpr List.nil_prefix)
      refine .turn (.refl s.server.store.torrents) (fun _ _ _ _ _ => hnow) (ih ?_)
      intro before hbefore
      refine follows (turn.move :: before) ?_
      rw [List.map_cons, List.inits_cons]
      exact List.mem_cons_of_mem _ (List.mem_map_of_mem hbefore)

/-- Any rule that names stalest torrents can be followed all along. -/
theorem exists_watched (picks : PeerStore.Picks choose) (inOrder : s.InOrder) (turns : List Turn) :
    ∃ answers last, Watched choose s turns answers last := by
  induction turns generalizing s with
  | nil => exact ⟨[], s, .done s⟩
  | cons turn turns ih =>
      obtain ⟨torrents, order, gives⟩ := inOrder.sound.exists_relist inOrder.positive picks s.now
      obtain ⟨answers, last, rest⟩ := ih ((inOrder.relist order).run turn.move).1
      exact ⟨_, last, .turn order (fun _ _ _ _ _ => gives) rest⟩

/-- Two runs from snapshots that are alike, one of them with sweeps and looks put in, give the same
answers and end alike. -/
theorem Watched.unnoticed {answers answers' : List Answer} {last last' : Snapshot}
    (inOrder : s.InOrder) (inOrder' : s'.InOrder) (alike : s.Alike s')
    (watched : Watched choose s (turns.filter Turn.isOwn) answers last)
    (padded : Watched choose s' turns answers' last') : answers' = answers ∧ last.Alike last' := by
  induction turns generalizing s s' answers answers' with
  | nil =>
      cases watched
      cases padded
      exact ⟨rfl, alike⟩
  | cons turn turns ih =>
      cases padded with
      | turn order' chosen' rest' =>
          have listed' := inOrder'.relist order'
          have alike' := alike.trans (inOrder'.alike_relist order')
          have after' := (listed'.run turn.move).1
          cases turn with
          | own move =>
              rw [List.filter_cons_of_pos rfl] at watched
              cases watched with
              | turn order chosen rest =>
                  have listed := inOrder.relist order
                  have both := (inOrder.alike_relist order).symm.trans alike'
                  obtain ⟨rfl, ends⟩ := ih (listed.run move).1 after'
                    (both.run listed listed' chosen chosen') rest rest'
                  rw [both.turn_answer?_eq (.own move)]
                  exact ⟨rfl, ends⟩
          | sweep =>
              exact ih inOrder after' (alike'.trans (listed'.alike_run nofun rfl)) watched rest'
          | look infoHash =>
              exact ih inOrder after' (alike'.trans (listed'.alike_run nofun rfl)) watched rest'

/-- **Sweeps and looks go unnoticed.** Take any server and any run of it, and put in sweeps and
looks wherever you like. Every query and every look of the run's own is answered as it was, and the
two runs end with the same secrets and the same unexpired announcements of each torrent.

The store may list its torrents in any order; of several that are equally stale, both runs give up
the one that the same rule names, which is told the unexpired contents. Whatever the rule, if it
names stalest torrents, both runs exist. -/
theorem sweeps_and_looks_unnoticed (localId : Key) (settings : Settings) (stream : ByteStream)
    (start : Instant) (choose : (Key → List Announcement) → Option Key) (turns : List Turn) :
    let first := Snapshot.create localId settings stream start
    let own := turns.filter Turn.isOwn
    (PeerStore.Picks choose → (∃ answers last, Watched choose first own answers last) ∧
      ∃ answers last, Watched choose first turns answers last) ∧
    ∀ answers answers' last last', Watched choose first own answers last →
      Watched choose first turns answers' last' →
      answers' = answers ∧ last'.now = last.now ∧ last'.server.localId = last.server.localId ∧
        last'.server.secrets = last.server.secrets ∧
        ∀ x, last'.server.store.fresh last'.now x = last.server.store.fresh last.now x := by
  intro first own
  have inOrder : first.InOrder := Snapshot.inOrder_create localId settings stream start
  refine ⟨fun picks => ⟨exists_watched picks inOrder own, exists_watched picks inOrder turns⟩, ?_⟩
  intro answers answers' last last' watched padded
  obtain ⟨hanswers, ends⟩ :=
    Watched.unnoticed inOrder inOrder ⟨rfl, rfl, rfl, .refl _ _⟩ watched padded
  exact ⟨hanswers, ends.now, ends.localId, ends.secrets, fun x => ends.now ▸ ends.contents.fresh x⟩

/-- A sweep takes the place of the one that an announcement would have made, and another one is
followed by nothing: the answers are the same, the number of torrents is not. -/
theorem two_sweeps_unnoticed :
    let key (n : ℕ) : Key := ⟨BitVec.ofNat 160 n⟩
    let source : Address := .v4 ⟨10, 0, 0, 2⟩ 6881
    let settings : Settings := { maxInfoHashes := 1, announceLifetime := 10 }
    let table := Routing.Table.empty (key 0) 8 0
    let first := Snapshot.create (key 0) settings ⟨[], 2⟩ 0
    let announcing (n : ℕ) : Turn := .own (.act (.handle table source (key 9)
      (.announcePeer (key n) 6881 (first.server.tokenFor source) false)))
    let turns := [announcing 1, .own (.wait 10), .sweep, announcing 2, announcing 3, .look (key 1),
      .own (.act (.look (key 3))), .own (.wait 10), .sweep]
    let own := turns.filter Turn.isOwn
    Turn.answersAll first turns = Turn.answersAll first own ∧
      (Turn.answersAll first own).length = 4 ∧
      (Move.runAll first (own.map Turn.move)).server.store.size = 1 ∧
      (Move.runAll first (turns.map Turn.move)).server.store.size = 0 := by
  intro key source settings table first announcing turns own
  let choose (contents : Key → List Announcement) : Option Key :=
    [key 1, key 2, key 3].find? (contents · ≠ [])
  have unnoticed := (sweeps_and_looks_unnoticed (key 0) settings ⟨[], 2⟩ 0 choose turns).2
  have watched := @watched_runAll first choose own (by decide +kernel)
  have padded := @watched_runAll first choose turns (by decide +kernel)
  refine ⟨(unnoticed _ _ _ _ watched padded).1, ?_, ?_, ?_⟩ <;> decide +kernel

end Server

end Mainline
