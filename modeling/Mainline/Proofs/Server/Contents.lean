import Mathlib.Data.List.Perm.Basic
import Mainline.Proofs.Server.Announcing

/-!
# Unexpired contents

The store drops what has expired when it happens to come across it, so that two stores may hold the
same unexpired announcements and yet differ in size, in the torrents they know and in the order in
which they list them. Two such stores *agree* (`PeerStore.Agree`). Whatever is done to both of them,
they go on to agree, although the test for room counts expired torrents too: that test can only
make a store sweep once more, and a torrent is given up only if there are too many unexpired ones.

Which one goes if several are equally stale is decided by the order in which the store lists them,
of which nothing is promised. It may be any order (`PeerStore.relist`); what is asked is that the
torrent given up is the one that a given rule names, which knows the unexpired contents and nothing
else (`PeerStore.GivesUp`).

## Main results

* `PeerStore.Sound.fresh_announce_other`: what an announcement leaves of other torrents.
* `PeerStore.agree_expire`, `PeerStore.agree_peers`, `PeerStore.agree_relist`: what changes nothing
  but what has expired.
* `PeerStore.Agree.announce`: stores that agree do so after an announcement.
* `PeerStore.Sound.exists_relist`: any rule that names stalest torrents can be followed.
-/

namespace Mainline

namespace PeerStore

variable {store store' : PeerStore} {now : Instant} {h x : Key}

/-! ### What expires stays expired -/

theorem isFresh_of_later {later : Instant} (hle : now ≤ later) {a : Announcement}
    (fresh : store.isFresh later a = true) : store.isFresh now a = true := by
  rw [isFresh, decide_eq_true_iff] at fresh ⊢
  exact Nat.lt_of_le_of_lt (Int.toNat_le_toNat (Int.sub_le_sub_right hle a.announced)) fresh

theorem fresh_later {later : Instant} (hle : now ≤ later) (store : PeerStore) (x : Key) :
    store.fresh later x = (store.fresh now x).filter (store.isFresh later) := by
  rw [fresh, fresh, List.filter_filter]
  refine List.filter_congr fun a _ => ?_
  rw [Bool.eq_iff_iff, Bool.and_eq_true]
  exact (and_iff_left_of_imp (isFresh_of_later hle)).symm

/-! ### What an announcement leaves of other torrents -/

/-- The torrent that goes if an announcement for `h` comes, should one have to go. -/
def givenUp? (store : PeerStore) (now : Instant) (h : Key) : Option Key :=
  if (store.otherHeld now h).length < store.maxInfoHashes then none
  else (store.expire now).stalest?

theorem fresh_expire (nodup : store.keys.Nodup) (now : Instant) (x : Key) :
    (store.expire now).fresh now x = store.fresh now x :=
  fresh_of_announcements_eq rfl (announcements_expire nodup now x)

theorem fresh_erase (store : PeerStore) (now : Instant) (y x : Key) :
    (store.erase y).fresh now x = if x = y then [] else store.fresh now x := by
  rw [fresh, announcements_erase]
  split <;> rfl

namespace Sound

/-- Making room for a new torrent gives up the stalest of too many. -/
theorem fresh_makeRoom (sound : store.Sound) (now : Instant) (x : Key) :
    (store.makeRoom now).fresh now x =
      if (store.held now).length < store.maxInfoHashes then store.fresh now x
      else if (store.expire now).stalest? = some x then [] else store.fresh now x := by
  have hswept := fresh_expire sound.nodup_keys now x
  have hsize : (store.expire now).size = (store.held now).length := by
    rw [← length_keys, keys_expire sound.nodup_keys]
  rw [makeRoom]
  split
  · next room => rw [if_pos (Nat.lt_of_le_of_lt (store.length_held_le now) room)]
  · dsimp only
    split
    · next room => rw [if_pos (hsize ▸ room), hswept]
    · next full =>
        rw [if_neg (hsize ▸ full)]
        cases (store.expire now).stalest? with
        | none => exact hswept
        | some y =>
            dsimp only
            rw [fresh_erase, hswept]
            exact if_congr (eq_comm.trans (Option.some_inj (a := y)).symm) rfl rfl

/-- **What an announcement leaves of other torrents**: what is fresh of them, unless they have to
go. -/
theorem fresh_announce_other (sound : store.Sound) (now : Instant) (peer : Address) (hx : x ≠ h) :
    (store.announce now h peer).fresh now x =
      if store.givenUp? now h = some x then [] else store.fresh now x := by
  have hother : (store.announce now h peer).fresh now x = (store.roomFor now h).fresh now x :=
    fresh_congr ((store.limits_announce now h peer).trans (store.limits_roomFor now h).symm)
      (announcements_announce_other peer hx)
  rw [hother, PeerStore.roomFor, givenUp?]
  split
  · next known =>
      rw [if_pos (sound.length_otherHeld_lt (contains_iff.mp known) now)]
      rfl
  · next unknown =>
      rw [sound.fresh_makeRoom, otherHeld_of_notMem (mt contains_iff.mpr unknown)]
      split <;> rfl

end Sound

/-! ### Agreement -/

/-- Two stores **agree** at an instant if they have the same limits and, of each torrent, the same
announcements that have not expired. -/
structure Agree (now : Instant) (store store' : PeerStore) : Prop where
  limits : store'.limits = store.limits
  fresh : ∀ x, store'.fresh now x = store.fresh now x

namespace Agree

theorem refl (now : Instant) (store : PeerStore) : Agree now store store :=
  ⟨rfl, fun _ => rfl⟩

theorem symm (agree : Agree now store store') : Agree now store' store :=
  ⟨agree.limits.symm, fun x => (agree.fresh x).symm⟩

theorem trans {store'' : PeerStore} (agree : Agree now store store')
    (agree' : Agree now store' store'') : Agree now store store'' :=
  ⟨agree'.limits.trans agree.limits, fun x => (agree'.fresh x).trans (agree.fresh x)⟩

/-- Stores that agree do so at any later instant. -/
theorem later {later : Instant} (agree : Agree now store store') (hle : now ≤ later) :
    Agree later store store' := by
  refine ⟨agree.limits, fun x => ?_⟩
  rw [fresh_later hle, fresh_later hle, agree.fresh, isFresh_congr agree.limits]

variable (agree : Agree now store store')
include agree

theorem contents_eq : store'.fresh now = store.fresh now :=
  funext agree.fresh

theorem maxInfoHashes_eq : store'.maxInfoHashes = store.maxInfoHashes :=
  congrArg (·.2.1) agree.limits

theorem maxPeersPerTorrent_eq : store'.maxPeersPerTorrent = store.maxPeersPerTorrent :=
  congrArg (·.2.2) agree.limits

/-- Stores that agree hold equally many other torrents. -/
theorem length_otherHeld (sound : store.Sound) (sound' : store'.Sound) (h : Key) :
    (store'.otherHeld now h).length = (store.otherHeld now h).length := by
  have hsame : ∀ x, x ∈ store'.otherHeld now h ↔ x ∈ store.otherHeld now h := by
    intro x
    rw [mem_otherHeld_iff, mem_otherHeld_iff, agree.fresh]
  refine List.Perm.length_eq ?_
  exact (List.perm_ext_iff_of_nodup (sound'.nodup_otherHeld now h)
    (sound.nodup_otherHeld now h)).mpr hsame

/-- Stores that agree name the same peers. -/
theorem peers_eq (h : Key) (limit : ℕ) :
    (store'.peers now h limit).1 = (store.peers now h limit).1 := by
  rw [fst_peers, fst_peers, freshPeers, freshPeers, agree.fresh]

end Agree

/-! ### What changes nothing but what has expired -/

theorem agree_expire (sound : store.Sound) (now : Instant) : Agree now store (store.expire now) :=
  ⟨rfl, fresh_expire sound.nodup_keys now⟩

theorem agree_peers (store : PeerStore) (now : Instant) (h : Key) (limit : ℕ) :
    Agree now store (store.peers now h limit).2 := by
  have hlimits := store.limits_peers now h limit
  refine ⟨hlimits, fun x => ?_⟩
  have hannouncements := store.announcements_peers now h x limit
  split at hannouncements
  · next heq => exact fresh_of_announcements_eq hlimits (hannouncements.trans (by rw [heq]))
  · exact fresh_congr hlimits hannouncements

theorem agree_relist {torrents : List (Key × List Announcement)}
    (order : torrents.Perm store.torrents) (sound : store.Sound) (now : Instant) :
    Agree now store (store.relist torrents) :=
  ⟨rfl, fun x => fresh_congr rfl (announcements_relist order sound.nodup_keys x)⟩

/-! ### Rules for what is given up -/

/-- If the store holds as many torrents as it may, the one that would go is the one that `choose`
names, which is told what has not expired. -/
def GivesUp (choose : (Key → List Announcement) → Option Key) (store : PeerStore) (now : Instant) :
    Prop :=
  store.maxInfoHashes ≤ (store.held now).length →
    (store.expire now).stalest? = choose (store.fresh now)

variable {choose : (Key → List Announcement) → Option Key}

instance : Decidable (store.GivesUp choose now) :=
  inferInstanceAs (Decidable (_ → _))

/-- Stores that agree give up the same torrent, if both follow the same rule. -/
theorem Agree.givenUp?_eq (agree : Agree now store store') (sound : store.Sound)
    (sound' : store'.Sound) (chosen : store.GivesUp choose now)
    (chosen' : store'.GivesUp choose now) (h : Key) :
    store'.givenUp? now h = store.givenUp? now h := by
  have hnames : ∀ {store : PeerStore}, store.GivesUp choose now →
      store.givenUp? now h = if (store.otherHeld now h).length < store.maxInfoHashes then none
        else choose (store.fresh now) := by
    intro store chosen
    rw [givenUp?]
    split
    · rfl
    · next full => exact chosen (Nat.le_trans (Nat.not_lt.mp full) (List.length_filter_le _ _))
  rw [hnames chosen, hnames chosen', agree.length_otherHeld sound sound', agree.maxInfoHashes_eq,
    agree.contents_eq]

/-- **Stores that agree do so after an announcement**, if both follow the same rule. -/
theorem Agree.announce (agree : Agree now store store') (sound : store.Sound)
    (sound' : store'.Sound) (positive : 0 < store.maxInfoHashes)
    (chosen : store.GivesUp choose now) (chosen' : store'.GivesUp choose now) (h : Key)
    (peer : Address) : Agree now (store.announce now h peer) (store'.announce now h peer) := by
  have hlimits : (store'.announce now h peer).limits = (store.announce now h peer).limits := by
    rw [limits_announce, limits_announce, agree.limits]
  refine ⟨hlimits, fun x => ?_⟩
  by_cases hx : x = h
  · subst hx
    have positive' : 0 < store'.maxInfoHashes := agree.maxInfoHashes_eq ▸ positive
    refine fresh_congr hlimits ?_
    rw [sound.announcements_announce_self positive, sound'.announcements_announce_self positive',
      agree.fresh, agree.maxPeersPerTorrent_eq]
  · rw [sound.fresh_announce_other now peer hx, sound'.fresh_announce_other now peer hx,
      agree.givenUp?_eq sound sound' chosen chosen', agree.fresh]

/-- A torrent of which something is fresh is **stalest** if no other such torrent is staler. -/
def Stalest (contents : Key → List Announcement) (y : Key) : Prop :=
  contents y ≠ [] ∧ ∀ x, contents x ≠ [] → isStaler (contents x) (contents y) = false

/-- The rule names a stalest torrent wherever there is one. -/
def Picks (choose : (Key → List Announcement) → Option Key) : Prop :=
  ∀ contents, (∃ y, Stalest contents y) → ∃ y, choose contents = some y ∧ Stalest contents y

/-- A store that holds something fresh has a stalest torrent. -/
theorem Sound.exists_stalest (sound : store.Sound) (some : store.held now ≠ []) :
    ∃ y, Stalest (store.fresh now) y := by
  have hkeys := keys_expire sound.nodup_keys now
  have hfresh : ∀ entry ∈ (store.expire now).torrents, entry.2 = store.fresh now entry.1 := by
    intro entry hmem
    rw [← announcements_expire sound.nodup_keys]
    exact (announcements_of_mem (sound.expire now).nodup_keys hmem).symm
  cases htorrents : (store.expire now).torrents with
  | nil => exact absurd (by rw [← hkeys, keys, htorrents, List.map_nil]) some
  | cons best torrents =>
      obtain ⟨hmem, hleast⟩ := foldl_staler best torrents
      rw [← htorrents] at hmem hleast
      refine ⟨(torrents.foldl staler best).1, ?_, fun x hx => ?_⟩
      · exact mem_held_iff.mp (hkeys ▸ List.mem_map_of_mem hmem)
      · obtain ⟨entry, hentry, rfl⟩ := List.mem_map.mp (hkeys ▸ mem_held_iff.mpr hx)
        rw [← hfresh _ hmem, ← hfresh entry hentry]
        exact hleast entry hentry

/-- The first torrent is picked if none is staler. -/
theorem foldl_staler_eq {best : Key × List Announcement}
    {torrents : List (Key × List Announcement)}
    (stalest : ∀ entry ∈ torrents, isStaler entry.2 best.2 = false) :
    torrents.foldl staler best = best := by
  induction torrents with
  | nil => rfl
  | cons next torrents ih =>
      obtain ⟨hnext, hrest⟩ := List.forall_mem_cons.mp stalest
      have hkept : staler best next = best := by
        rw [staler, hnext]
        rfl
      rw [List.foldl_cons, hkept]
      exact ih hrest

/-- A torrent that comes first still does so after a sweep, if something of it is fresh. -/
theorem torrents_expire_relist_cons (entry : Key × List Announcement)
    (rest : List (Key × List Announcement))
    (some : (!(entry.2.filter (store.isFresh now)).isEmpty) = true) :
    ∃ rest', ((store.relist (entry :: rest)).expire now).torrents =
      (entry.1, entry.2.filter (store.isFresh now)) :: rest' := by
  simp only [expire, relist, List.map_cons]
  exact ⟨_, List.filter_cons_of_pos some⟩

/-- **Any rule that names stalest torrents can be followed**: some order of the torrents makes the
store give up what it names. -/
theorem Sound.exists_relist (sound : store.Sound) (positive : 0 < store.maxInfoHashes)
    (picks : Picks choose) (now : Instant) :
    ∃ torrents, torrents.Perm store.torrents ∧ (store.relist torrents).GivesUp choose now := by
  by_cases hsome : store.held now = []
  · refine ⟨store.torrents, .refl _, fun full => ?_⟩
    have hnone : (store.held now).length = 0 := by rw [hsome, List.length_nil]
    exact absurd (Nat.lt_of_lt_of_le positive full) (Nat.not_lt.mpr (Nat.le_of_eq hnone))
  · obtain ⟨y, hchosen, some, stalest⟩ := picks _ (sound.exists_stalest hsome)
    have held : y ∈ store.held now := mem_held_iff.mpr some
    have known : y ∈ store.keys := List.mem_of_mem_filter held
    have hentry := mem_torrents_of_mem_keys sound.nodup_keys known
    have order := (List.perm_cons_erase hentry).symm
    refine ⟨_, order, fun _ => ?_⟩
    have agree := agree_relist order sound now
    have sound' := sound.relist order
    have hfirst := torrents_expire_relist_cons (y, store.announcements y)
      (store.torrents.erase (y, store.announcements y)) (List.mem_filter.mp held).2
    rw [agree.contents_eq, hchosen]
    generalize (y, store.announcements y) :: store.torrents.erase (y, store.announcements y) =
      torrents at agree sound' hfirst ⊢
    obtain ⟨rest, hfirst⟩ := hfirst
    rw [← fresh] at hfirst
    have hkept : rest.foldl staler (y, store.fresh now y) = (y, store.fresh now y) := by
      refine foldl_staler_eq fun entry hmem => ?_
      have hin : entry ∈ ((store.relist torrents).expire now).torrents :=
        hfirst ▸ List.mem_cons_of_mem _ hmem
      have hfresh : entry.2 = store.fresh now entry.1 := by
        rw [← agree.fresh, ← announcements_expire sound'.nodup_keys]
        exact (announcements_of_mem (sound'.expire now).nodup_keys hin).symm
      have hheld : entry.1 ∈ (store.relist torrents).held now :=
        keys_expire sound'.nodup_keys now ▸ List.mem_map_of_mem hin
      rw [mem_held_iff, agree.fresh] at hheld
      exact hfresh ▸ stalest entry.1 hheld
    rw [stalest?_cons hfirst, hkept]

end PeerStore

end Mainline
