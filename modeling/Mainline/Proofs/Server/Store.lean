import Mathlib.Data.List.Nodup
import Mathlib.Order.WithBot
import Mainline.Proofs.Basic
import Mainline.Server.PeerStore

/-!
# The store of announced peers

The store forgets lazily: an announcement that has expired stays in it until somebody sweeps or
looks. What counts is therefore not what lies in the store but what of it is still *fresh*
(`PeerStore.fresh`), and the torrents that have something fresh are those that the store *holds*
(`PeerStore.held`). Each operation has one lemma that says what it makes of the announcements of a
torrent, and later proofs open none of them.

`PeerStore.Sound` is what every operation keeps: a torrent stands in the store once, a peer once
among the announcements of its torrent, and there are no more torrents than the bound allows.

## Main results

* `PeerStore.announcements_set`, `PeerStore.announcements_erase`, `PeerStore.announcements_expire`:
  what each change makes of the announcements of a torrent.
* `PeerStore.exists_stalest`: which torrent is picked when one has to go.
* `PeerStore.Sound.makeRoom_roomMade`: the ways in which room is made for a new torrent.
* `PeerStore.announcements_relist`: the order in which the store lists its torrents does not matter
  to any of them.
-/

namespace Mainline

namespace PeerStore

variable {store : PeerStore} {now : Instant} {h x : Key}

/-! ### What is in a store -/

/-- The torrents in the store. -/
def keys (store : PeerStore) : List Key :=
  store.torrents.map Prod.fst

/-- The announcements of a torrent that have not expired, oldest first. -/
def fresh (store : PeerStore) (now : Instant) (infoHash : Key) : List Announcement :=
  (store.announcements infoHash).filter (store.isFresh now)

/-- The torrents that have announcements that have not expired. -/
def held (store : PeerStore) (now : Instant) : List Key :=
  store.keys.filter fun infoHash => !(store.fresh now infoHash).isEmpty

/-- The peers of a torrent whose announcements have not expired, the latest announced first. -/
def freshPeers (store : PeerStore) (now : Instant) (infoHash : Key) : List Address :=
  (store.fresh now infoHash).reverse.map (·.peer)

/-- The store is **sound** if it has each torrent once, each peer of a torrent once, and not too
many torrents. -/
structure Sound (store : PeerStore) : Prop where
  nodup_keys : store.keys.Nodup
  size_le : store.size ≤ store.maxInfoHashes
  nodup_peers : ∀ infoHash, ((store.announcements infoHash).map (·.peer)).Nodup

@[simp] theorem length_keys (store : PeerStore) : store.keys.length = store.size := by
  simp [keys, size]

theorem contains_iff : store.contains h = true ↔ h ∈ store.keys := by
  simp [contains, keys, List.any_eq_true]

theorem announcements_of_notMem (absent : h ∉ store.keys) : store.announcements h = [] := by
  rw [announcements, lookup_eq_none_of_notMem absent, Option.getD_none]

theorem announcements_of_mem (nodup : store.keys.Nodup) {as : List Announcement}
    (hmem : (h, as) ∈ store.torrents) : store.announcements h = as := by
  rw [announcements, (lookup_eq_some_iff_mem nodup).mpr hmem, Option.getD_some]

/-- A torrent in the store stands there with its announcements. -/
theorem mem_torrents_of_mem_keys (nodup : store.keys.Nodup) (hmem : h ∈ store.keys) :
    (h, store.announcements h) ∈ store.torrents := by
  obtain ⟨⟨k, as⟩, hentry, rfl⟩ := List.mem_map.mp hmem
  rw [announcements_of_mem nodup hentry]
  exact hentry

theorem fresh_of_notMem (absent : h ∉ store.keys) : store.fresh now h = [] := by
  rw [fresh, announcements_of_notMem absent, List.filter_nil]

/-- The store holds the torrents that have something fresh. -/
theorem mem_held_iff : h ∈ store.held now ↔ store.fresh now h ≠ [] := by
  have hshown : (!(store.fresh now h).isEmpty) = true ↔ store.fresh now h ≠ [] := by
    rw [Bool.not_eq_true', List.isEmpty_eq_false_iff]
  rw [held, List.mem_filter, hshown]
  refine and_iff_right_of_imp fun hfresh => ?_
  by_contra absent
  exact hfresh (fresh_of_notMem absent)

/-! ### What operations change -/

theorem keys_erase (store : PeerStore) (h : Key) :
    (store.erase h).keys = store.keys.filter (· != h) := by
  simp only [keys, erase, List.filter_map]
  rfl

theorem announcements_erase (store : PeerStore) (h x : Key) :
    (store.erase h).announcements x = if x = h then [] else store.announcements x := by
  rw [announcements, announcements, erase, lookup_filter_bne]
  split <;> rfl

theorem keys_set (store : PeerStore) (h : Key) (as : List Announcement) :
    (store.set h as).keys = if h ∈ store.keys then store.keys else store.keys ++ [h] := by
  rw [set]
  by_cases hmem : h ∈ store.keys
  · rw [if_pos (contains_iff.mpr hmem), if_pos hmem, keys, keys, List.map_map]
    refine List.map_congr_left fun entry _ => ?_
    simp only [Function.comp_apply]
    split <;> rfl
  · rw [if_neg (mt contains_iff.mp hmem), if_neg hmem]
    simp [keys]

theorem announcements_set (store : PeerStore) (h x : Key) (as : List Announcement) :
    (store.set h as).announcements x = if x = h then as else store.announcements x := by
  rw [set]
  by_cases hmem : h ∈ store.keys
  · rw [if_pos (contains_iff.mpr hmem), announcements, announcements, lookup_map_ite]
    by_cases hx : x = h
    · obtain ⟨entry, hentry, rfl⟩ := List.mem_map.mp hmem
      have hfound : (store.torrents.lookup x).isSome := by
        rw [List.lookup_isSome_iff]
        exact ⟨entry, hentry, beq_iff_eq.mpr hx⟩
      obtain ⟨bs, hbs⟩ := Option.isSome_iff_exists.mp hfound
      rw [hbs, if_pos hx, Option.map_some, if_pos hx, Option.getD_some]
    · simp only [if_neg hx, Option.map_id']
  · rw [if_neg (mt contains_iff.mp hmem)]
    simp only [announcements, List.lookup_append, lookup_cons_eq_ite, List.lookup_nil]
    by_cases hx : x = h
    · subst hx
      rw [if_pos rfl, if_pos rfl, lookup_eq_none_of_notMem hmem, Option.none_or, Option.getD_some]
    · rw [if_neg hx, if_neg hx, Option.or_none]

/-- Sweeping leaves the torrents that the store holds. -/
theorem keys_expire (nodup : store.keys.Nodup) (now : Instant) :
    (store.expire now).keys = store.held now := by
  rw [keys, expire, held, keys]
  simp only [List.filter_map, List.map_map]
  have hfresh : ∀ entry ∈ store.torrents,
      (!(entry.2.filter (store.isFresh now)).isEmpty) = !(store.fresh now entry.1).isEmpty := by
    intro entry hentry
    rw [fresh, announcements_of_mem nodup hentry]
  exact congrArg (List.map Prod.fst) (List.filter_congr hfresh)

/-- Sweeping leaves what is fresh. -/
theorem announcements_expire (nodup : store.keys.Nodup) (now : Instant) (x : Key) :
    (store.expire now).announcements x = store.fresh now x := by
  have hkeys := keys_expire nodup now
  by_cases hheld : x ∈ store.held now
  · rw [← hkeys] at hheld
    have hnodup : (store.expire now).keys.Nodup := hkeys ▸ nodup.filter _
    have hentry := mem_torrents_of_mem_keys hnodup hheld
    obtain ⟨⟨k, as⟩, hin, heq⟩ := List.mem_map.mp (List.mem_of_mem_filter hentry)
    obtain ⟨rfl, heq⟩ := Prod.mk.inj heq
    rw [← heq, fresh, announcements_of_mem nodup hin]
  · rw [announcements_of_notMem (hkeys ▸ hheld)]
    exact (not_not.mp (mt mem_held_iff.mpr hheld)).symm

/-! ### The stalest torrent -/

theorem not_isStaler_self (as : List Announcement) : isStaler as as = false := by
  rw [isStaler]
  cases latest? as <;> simp

theorem not_isStaler_of_isStaler {as bs : List Announcement} (h : isStaler as bs = true) :
    isStaler bs as = false := by
  rw [isStaler] at h ⊢
  cases has : latest? as <;> cases hbs : latest? bs <;> simp_all [Int.le_of_lt]

theorem not_isStaler_trans {as bs cs : List Announcement} (hab : isStaler as bs = false)
    (hbc : isStaler bs cs = false) : isStaler as cs = false := by
  rw [isStaler] at hab hbc ⊢
  cases has : latest? as <;> cases hbs : latest? bs <;> cases hcs : latest? cs <;> simp_all
  exact Int.le_trans hbc hab

/-- If a torrent is not staler than another, none of the other's announcements is later than all of
its own. -/
theorem exists_le_of_not_isStaler {as bs : List Announcement} (h : isStaler as bs = false)
    {b : Announcement} (hb : b ∈ bs) : ∃ a ∈ as, b.announced ≤ a.announced := by
  obtain ⟨latest, hlatest⟩ : ∃ latest, latest? bs = some latest := by
    rw [latest?, ← Option.isSome_iff_exists, List.isSome_max?_iff]
    exact List.ne_nil_of_mem (List.mem_map_of_mem hb)
  have hle : b.announced ≤ latest :=
    (List.max?_eq_some_iff.mp hlatest).2 _ (List.mem_map_of_mem hb)
  cases hown : latest? as with
  | none =>
      rw [isStaler, hown, hlatest] at h
      cases h
  | some own =>
      obtain ⟨a, ha, rfl⟩ := List.mem_map.mp (List.max?_eq_some_iff.mp hown).1
      rw [isStaler, hown, hlatest] at h
      have hge : latest ≤ a.announced := Int.not_lt.mp (of_decide_eq_false h)
      exact ⟨a, ha, Int.le_trans hle hge⟩

/-- The staler of two torrents, the first if neither is. -/
def staler (best next : Key × List Announcement) : Key × List Announcement :=
  if isStaler next.2 best.2 then next else best

theorem stalest?_cons {best : Key × List Announcement} {torrents : List (Key × List Announcement)}
    (htorrents : store.torrents = best :: torrents) :
    store.stalest? = some (torrents.foldl staler best).1 := by
  rw [stalest?, htorrents]
  refine congrArg (Option.map _) (List.foldl_hom some fun best next => ?_)
  dsimp only
  rw [staler]
  split <;> rfl

/-- None of several torrents is staler than the one that is picked. -/
theorem foldl_staler (best : Key × List Announcement) (torrents : List (Key × List Announcement)) :
    torrents.foldl staler best ∈ best :: torrents ∧
      ∀ entry ∈ best :: torrents, isStaler entry.2 (torrents.foldl staler best).2 = false := by
  induction torrents generalizing best with
  | nil => simp [not_isStaler_self]
  | cons next torrents ih =>
      obtain ⟨hmem, hleast⟩ := ih (staler best next)
      rw [List.foldl_cons]
      have hstaler : isStaler best.2 (staler best next).2 = false ∧
          isStaler next.2 (staler best next).2 = false ∧
          (staler best next = best ∨ staler best next = next) := by
        rw [staler]
        split
        · next hlt => exact ⟨not_isStaler_of_isStaler hlt, not_isStaler_self _, .inr rfl⟩
        · next hge => exact ⟨not_isStaler_self _, Bool.eq_false_iff.mpr hge, .inl rfl⟩
      obtain ⟨hbest, hnext, hpicked⟩ := hstaler
      have hfirst := hleast _ List.mem_cons_self
      refine ⟨?_, ?_⟩
      · rcases List.mem_cons.mp hmem with heq | hin
        · rw [heq]
          rcases hpicked with heq | heq <;> simp [heq]
        · exact List.mem_cons_of_mem _ (List.mem_cons_of_mem _ hin)
      · intro entry hentry
        rcases List.mem_cons.mp hentry with rfl | hentry
        · exact not_isStaler_trans hbest hfirst
        · rcases List.mem_cons.mp hentry with rfl | hentry
          · exact not_isStaler_trans hnext hfirst
          · exact hleast entry (List.mem_cons_of_mem _ hentry)

/-- **The stalest torrent** of a store that has any is one of its torrents, and no announcement of
it is later than all those of another one. -/
theorem exists_stalest (nodup : store.keys.Nodup) (some : store.keys ≠ []) :
    ∃ y, store.stalest? = .some y ∧ y ∈ store.keys ∧ ∀ x ∈ store.keys,
      ∀ a ∈ store.announcements y, ∃ b ∈ store.announcements x, a.announced ≤ b.announced := by
  cases htorrents : store.torrents with
  | nil => exact absurd (by rw [keys, htorrents]; rfl) some
  | cons best torrents =>
      obtain ⟨hmem, hleast⟩ := foldl_staler best torrents
      rw [← htorrents] at hmem hleast
      refine ⟨_, stalest?_cons htorrents, List.mem_map_of_mem hmem, fun x hx a ha => ?_⟩
      rw [announcements_of_mem nodup hmem] at ha
      exact exists_le_of_not_isStaler (hleast _ (mem_torrents_of_mem_keys nodup hx)) ha

/-! ### Operations keep the store sound -/

/-- The limits of a store: how long it keeps an announcement, and how much. -/
def limits (store : PeerStore) : Duration × ℕ × ℕ :=
  (store.lifetime, store.maxInfoHashes, store.maxPeersPerTorrent)

theorem limits_set (store : PeerStore) (h : Key) (as : List Announcement) :
    (store.set h as).limits = store.limits := by
  rw [set]
  split <;> rfl

theorem limits_makeRoom (store : PeerStore) (now : Instant) :
    (store.makeRoom now).limits = store.limits := by
  rw [makeRoom]
  split
  · rfl
  · dsimp only
    split
    · rfl
    · split <;> rfl

/-- Stores that keep announcements equally long agree on what is fresh. -/
theorem isFresh_congr {store' : PeerStore} (same : store'.limits = store.limits) :
    store'.isFresh now = store.isFresh now := by
  have hlifetime : store'.lifetime = store.lifetime := congrArg Prod.fst same
  funext a
  rw [isFresh, isFresh, hlifetime]

theorem fresh_congr {store' : PeerStore} (same : store'.limits = store.limits)
    (hannouncements : store'.announcements x = store.announcements x) :
    store'.fresh now x = store.fresh now x := by
  rw [fresh, fresh, hannouncements, isFresh_congr same]

theorem fresh_sublist (store : PeerStore) (now : Instant) (x : Key) :
    (store.fresh now x).Sublist (store.announcements x) :=
  List.filter_sublist

/-- What is fresh once all that has expired is dropped is what was fresh before. -/
theorem fresh_of_announcements_eq {store' : PeerStore} (same : store'.limits = store.limits)
    (hannouncements : store'.announcements x = store.fresh now x) :
    store'.fresh now x = store.fresh now x := by
  rw [fresh, hannouncements, isFresh_congr same, fresh, List.filter_filter]
  simp

theorem length_held_le (store : PeerStore) (now : Instant) :
    (store.held now).length ≤ store.size := by
  rw [← length_keys]
  exact List.length_filter_le _ _

namespace Sound

variable (sound : store.Sound)
include sound

theorem expire (now : Instant) : (store.expire now).Sound := by
  have hkeys := keys_expire sound.nodup_keys now
  refine ⟨?_, ?_, fun x => ?_⟩
  · rw [hkeys]
    exact sound.nodup_keys.filter _
  · rw [← length_keys, hkeys]
    exact Nat.le_trans (store.length_held_le now) sound.size_le
  · rw [announcements_expire sound.nodup_keys]
    exact (sound.nodup_peers x).sublist ((store.fresh_sublist now x).map _)

theorem erase (h : Key) : (store.erase h).Sound := by
  refine ⟨?_, ?_, fun x => ?_⟩
  · rw [keys_erase]
    exact sound.nodup_keys.filter _
  · rw [← length_keys, keys_erase]
    have hlength : (store.keys.filter (· != h)).length ≤ store.size :=
      store.length_keys ▸ List.length_filter_le _ _
    exact Nat.le_trans hlength sound.size_le
  · rw [announcements_erase]
    split
    · exact List.nodup_nil
    · exact sound.nodup_peers x

/-- A torrent may be set if it is in the store already, or if there is room for it. -/
theorem set {as : List Announcement} (room : h ∈ store.keys ∨ store.size < store.maxInfoHashes)
    (nodup : (as.map (·.peer)).Nodup) : (store.set h as).Sound := by
  have hlimits : (store.set h as).maxInfoHashes = store.maxInfoHashes :=
    congrArg (·.2.1) (store.limits_set h as)
  refine ⟨?_, ?_, fun x => ?_⟩
  · rw [keys_set]
    split
    · exact sound.nodup_keys
    · next absent =>
        exact sound.nodup_keys.append (List.nodup_singleton h) (List.disjoint_singleton.mpr absent)
  · rw [← length_keys, keys_set, hlimits]
    split
    · rw [length_keys]
      exact sound.size_le
    · next absent =>
        rw [List.length_append, length_keys]
        exact room.resolve_left absent
  · rw [announcements_set]
    split
    · exact nodup
    · exact sound.nodup_peers x

end Sound

/-! ### Making room -/

/-- The ways of making room for a torrent that the store does not have. -/
inductive RoomMade (store : PeerStore) (now : Instant) : PeerStore → Prop
  | enough (room : store.size < store.maxInfoHashes) : RoomMade store now store
  | swept (room : (store.held now).length < store.maxInfoHashes)
      (full : store.maxInfoHashes ≤ store.size) : RoomMade store now (store.expire now)
  | evicted {stalest : Key} (full : (store.held now).length = store.maxInfoHashes)
      (held : stalest ∈ store.held now)
      (oldest : ∀ x ∈ store.held now, ∀ a ∈ store.fresh now stalest,
        ∃ b ∈ store.fresh now x, a.announced ≤ b.announced) :
      RoomMade store now ((store.expire now).erase stalest)

/-- **Room is made in one of these ways.** A torrent that the store holds is dropped only if it
holds as many as it may, and then it is the stalest. -/
theorem Sound.makeRoom_roomMade (sound : store.Sound) (positive : 0 < store.maxInfoHashes)
    (now : Instant) : RoomMade store now (store.makeRoom now) := by
  have hkeys := keys_expire sound.nodup_keys now
  have hsize : (store.expire now).size = (store.held now).length := by
    rw [← length_keys, hkeys]
  rw [makeRoom]
  split
  · next room => exact .enough room
  · next full =>
      dsimp only
      split
      · next room => exact .swept (hsize ▸ room) (Nat.not_lt.mp full)
      · next heldFull =>
          have hfull : (store.held now).length = store.maxInfoHashes := by
            have hle := Nat.le_trans (store.length_held_le now) sound.size_le
            have hge : store.maxInfoHashes ≤ (store.held now).length :=
              hsize ▸ Nat.not_lt.mp heldFull
            exact Nat.le_antisymm hle hge
          have hsome : (store.expire now).keys ≠ [] := by
            rw [hkeys]
            refine List.ne_nil_of_length_pos ?_
            omega
          obtain ⟨stalest, hstalest, hmem, holdest⟩ :=
            exists_stalest (sound.expire now).nodup_keys hsome
          rw [hkeys] at hmem holdest
          simp only [announcements_expire sound.nodup_keys] at holdest
          rw [hstalest]
          exact .evicted hfull hmem holdest

/-- The store once there is room for a torrent. -/
def roomFor (store : PeerStore) (now : Instant) (h : Key) : PeerStore :=
  if store.contains h then store else store.makeRoom now

theorem limits_roomFor (store : PeerStore) (now : Instant) (h : Key) :
    (store.roomFor now h).limits = store.limits := by
  rw [roomFor]
  split
  · rfl
  · exact store.limits_makeRoom now

namespace Sound

variable (sound : store.Sound) (positive : 0 < store.maxInfoHashes)
include sound positive

/-- Making room for a torrent changes nothing about it. -/
theorem announcements_roomFor (now : Instant) (h : Key) :
    (store.roomFor now h).announcements h = store.announcements h := by
  rw [roomFor]
  split
  · rfl
  · next absent =>
      have absent : h ∉ store.keys := mt contains_iff.mpr absent
      have roomMade := sound.makeRoom_roomMade positive now
      generalize store.makeRoom now = room at roomMade ⊢
      cases roomMade with
      | enough => rfl
      | swept =>
          rw [announcements_expire sound.nodup_keys, fresh_of_notMem absent,
            announcements_of_notMem absent]
      | @evicted stalest =>
          rw [announcements_erase, announcements_expire sound.nodup_keys, fresh_of_notMem absent,
            announcements_of_notMem absent, ite_self]

/-- There is room for a torrent once room has been made for it. -/
theorem roomFor (now : Instant) (h : Key) :
    (store.roomFor now h).Sound ∧
      (h ∈ (store.roomFor now h).keys ∨
        (store.roomFor now h).size < (store.roomFor now h).maxInfoHashes) := by
  have hkeys := keys_expire sound.nodup_keys now
  rw [PeerStore.roomFor]
  split
  · next present => exact ⟨sound, .inl (contains_iff.mp present)⟩
  · have roomMade := sound.makeRoom_roomMade positive now
    generalize store.makeRoom now = room at roomMade ⊢
    cases roomMade with
    | enough room => exact ⟨sound, .inr room⟩
    | swept room full =>
        refine ⟨sound.expire now, .inr ?_⟩
        rw [← length_keys, hkeys]
        exact room
    | @evicted stalest full held oldest =>
        refine ⟨(sound.expire now).erase stalest, .inr ?_⟩
        rw [← length_keys, keys_erase, hkeys]
        have hlt : ((store.held now).filter (· != stalest)).length < (store.held now).length :=
          List.length_filter_lt_length_iff_exists.mpr ⟨stalest, held, by simp⟩
        exact full ▸ hlt

end Sound

/-! ### Another order -/

/-- An **order** to list torrents in. -/
structure Order where
  list : List (Key × List Announcement) → List (Key × List Announcement)
  perm : ∀ torrents, (list torrents).Perm torrents

/-- The store with its torrents in another order. -/
def relist (store : PeerStore) (torrents : List (Key × List Announcement)) : PeerStore :=
  { store with torrents }

section Relist

variable {torrents : List (Key × List Announcement)} (order : torrents.Perm store.torrents)
include order

/-- The torrents are the same. -/
theorem keys_relist : (store.relist torrents).keys.Perm store.keys :=
  order.map _

/-- Another order changes nothing about a torrent. -/
theorem announcements_relist (nodup : store.keys.Nodup) (x : Key) :
    (store.relist torrents).announcements x = store.announcements x := by
  have hkeys := keys_relist order
  by_cases known : x ∈ store.keys
  · exact announcements_of_mem (hkeys.nodup_iff.mpr nodup)
      (order.mem_iff.mpr (mem_torrents_of_mem_keys nodup known))
  · rw [announcements_of_notMem known, announcements_of_notMem (mt hkeys.mem_iff.mp known)]

theorem Sound.relist (sound : store.Sound) : (store.relist torrents).Sound := by
  refine ⟨(keys_relist order).nodup_iff.mpr sound.nodup_keys, ?_, fun x => ?_⟩
  · rw [← length_keys, (keys_relist order).length_eq, length_keys]
    exact sound.size_le
  · rw [announcements_relist order sound.nodup_keys]
    exact sound.nodup_peers x

end Relist

end PeerStore

end Mainline
