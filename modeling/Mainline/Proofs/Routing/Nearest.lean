import Mainline.Proofs.Lookup.Search
import Mainline.Proofs.Routing.WellFormed
import Mainline.Server

/-!
# The members that are nearest to a key

A table is asked for the members that are nearest to a key, and other nodes are told of those that
are not bad. All buckets are looked through, what is found is sorted and cut off. Since no id occurs
twice in a table and no two ids are equally far from a key, what is left is in strict order, and
whoever has been cut off is farther away than everyone who has not.

## Main results

* `nearest_sortByDistance`: sorting puts contacts with different ids in strict order.
* `Table.WellFormed.nearestOf_closestWhere`: what a well-formed table finds.
* `nearest_members_are_told`: what every table finds, and what every server tells of it.
-/

namespace Mainline

/-! ### Sorting by distance -/

theorem sortByDistance_perm {α : Type} (target : Key) (key : α → Key) (xs : List α) :
    (sortByDistance target key xs).Perm xs :=
  List.mergeSort_perm _ _

/-- What is sorted by distance stands in ascending order. -/
theorem pairwise_sortByDistance {α : Type} (target : Key) (key : α → Key) (xs : List α) :
    (sortByDistance target key xs).Pairwise fun x y =>
      (key x).distance target ≤ (key y).distance target := by
  have htrans : ∀ x y z, decide ((key x).distance target ≤ (key y).distance target) →
      decide ((key y).distance target ≤ (key z).distance target) →
      decide ((key x).distance target ≤ (key z).distance target) := by
    intro x y z hxy hyz
    simp only [decide_eq_true_eq] at hxy hyz ⊢
    exact le_trans hxy hyz
  have htotal : ∀ x y, decide ((key x).distance target ≤ (key y).distance target) ||
      decide ((key y).distance target ≤ (key x).distance target) := by
    intro x y
    simp only [Bool.or_eq_true, decide_eq_true_eq]
    exact le_total _ _
  have hsorted := List.pairwise_mergeSort htrans htotal xs
  exact hsorted.imp of_decide_eq_true

/-- **Sorting puts contacts in strict order** if no two of them have the same id. -/
theorem nearest_sortByDistance (target : Key) {cs : List Contact}
    (h : (cs.map Contact.id).Nodup) : Nearest target (sortByDistance target Contact.id cs) := by
  have hperm := sortByDistance_perm target Contact.id cs
  have hdistinct : (sortByDistance target Contact.id cs).Pairwise fun c d => c.id ≠ d.id :=
    List.pairwise_map.mp ((hperm.map Contact.id).nodup_iff.mpr h)
  refine ((pairwise_sortByDistance target Contact.id cs).and hdistinct).imp ?_
  rintro c d ⟨hle, hne⟩
  exact lt_of_le_of_ne hle (mt Key.distance_left_inj.mp hne)

namespace Routing

/-! ### What a table finds -/

/-- The contacts chosen are **the nearest** ones of the members, as many as there may be: they are
the contacts of members, have different ids and stand in strictly ascending order of their
distances, and every member that is left out is farther away than each of them. -/
structure NearestOf (target : Key) (limit : ℕ) (members : List Member) (chosen : List Contact) :
    Prop where
  length : chosen.length = min limit members.length
  nodup : (chosen.map Contact.id).Nodup
  ascending : Nearest target chosen
  stored : ∀ c ∈ chosen, ∃ m ∈ members, m.contact = c
  farther : ∀ m ∈ members, m.contact ∉ chosen → ∀ c ∈ chosen,
    c.id.distance target < m.id.distance target

/-- The members that are not bad. -/
def Table.live (t : Table) (now : Instant) : List Member :=
  t.members.filter fun m => m.standing now != .bad

/-- **A well-formed table finds the nearest** of the members that are admitted. -/
theorem Table.WellFormed.nearestOf_closestWhere {t : Table} (h : t.WellFormed) (target : Key)
    (limit : ℕ) (keep : Member → Bool) :
    NearestOf target limit (t.members.filter keep) (t.closestWhere target limit keep) := by
  have hnodup : (((t.members.filter keep).map Member.contact).map Contact.id).Nodup := by
    rw [List.map_map]
    exact h.nodup_members.sublist (List.filter_sublist.map Member.id)
  have hperm := sortByDistance_perm target Contact.id ((t.members.filter keep).map Member.contact)
  have hnearest := nearest_sortByDistance target hnodup
  have hascending : Nearest target (t.closestWhere target limit keep) :=
    hnearest.sublist (List.take_sublist _ _)
  refine ⟨?_, hascending.nodup_ids, hascending, ?_, ?_⟩
  · rw [closestWhere, List.length_take, hperm.length_eq, List.length_map]
  · intro c hc
    exact List.mem_map.mp (hperm.mem_iff.mp (List.mem_of_mem_take hc))
  · intro m hm hout c hc
    have hmem := hperm.mem_iff.mpr (List.mem_map_of_mem hm)
    rw [← List.take_append_drop limit (sortByDistance ..), List.mem_append] at hmem
    obtain hin | hrest := hmem
    · exact absurd hin hout
    · exact hnearest.take_lt_drop limit hc hrest

/-- A table's own id is not among what a well-formed table finds. -/
theorem Table.WellFormed.localId_notMem_of_nearestOf {t : Table} (h : t.WellFormed) {target : Key}
    {limit : ℕ} {keep : Member → Bool} {chosen : List Contact}
    (hchosen : NearestOf target limit (t.members.filter keep) chosen) :
    t.localId ∉ chosen.map Contact.id := by
  intro hmem
  obtain ⟨c, hc, hid⟩ := List.mem_map.mp hmem
  obtain ⟨m, hm, rfl⟩ := hchosen.stored c hc
  exact h.localId_notMem (List.mem_map.mpr ⟨m, List.mem_of_mem_filter hm, hid⟩)

/-! ### What others are told -/

/-- **A server tells of the nearest live members** of a well-formed table, right after the sender
has been offered to it, when it is asked for nodes and when it is asked for peers. It does not tell
of itself. -/
theorem Table.WellFormed.nodes_told {t : Table} (h : t.WellFormed) (server : Server)
    (own : server.localId = t.localId) (now : Instant) (source : Address) (sender target : Key) :
    let t' := (t.observe now (.active ⟨sender, source⟩ now)).1
    ∃ nodes, NearestOf target t.capacity (t'.live now) nodes ∧
      server.localId ∉ nodes.map Contact.id ∧
      (server.handle t now source sender (.findNode target)).1 =
        .ok (.findNode server.localId nodes) ∧
      ∃ peers, (server.handle t now source sender (.getPeers target)).1 =
        .ok (.getPeers server.localId (server.tokenFor source) (some nodes) peers) := by
  intro t'
  have edit : Edit t t' := t.edit_observe now (.active ⟨sender, source⟩ now)
  obtain ⟨hlocal, hcapacity⟩ := edit.frame
  have hformed := edit.wellFormed h
  have hnodes := hformed.nearestOf_closestWhere target t'.capacity fun m => m.standing now != .bad
  have hown := hformed.localId_notMem_of_nearestOf hnodes
  rw [hlocal, ← own] at hown
  rw [hcapacity] at hnodes
  refine ⟨t'.closestLive now target t'.capacity, ?_, ?_, rfl, _, rfl⟩
  · rw [hcapacity]
    exact hnodes
  · exact hown

/-- **The nearest members are found, and others are told of them.** Whatever has been done to a
table: asked for the members nearest to a key, it lists the nearest of all its members, and asked
for those that are not bad, it lists the nearest of these, up to the limit in each case. A server
with this table, whatever its secrets and its store, answers a query for nodes, and one for peers,
with the nearest live members of the table as it is once the sender has been offered to it, as many
as a bucket may hold. It never names itself. -/
theorem nearest_members_are_told (localId : Key) (capacity : ℕ) (start : Instant)
    (steps : List Step) :
    let t := (Step.runAll ⟨.empty localId capacity start, start⟩ steps).table
    (∀ target limit, NearestOf target limit t.members (t.closest target limit)) ∧
    (∀ now target limit, NearestOf target limit (t.live now) (t.closestLive now target limit)) ∧
    ∀ secrets store now source sender target,
      let server : Server := ⟨localId, secrets, store⟩
      let t' := (t.observe now (.active ⟨sender, source⟩ now)).1
      ∃ nodes, NearestOf target capacity (t'.live now) nodes ∧
        localId ∉ nodes.map Contact.id ∧
        (server.handle t now source sender (.findNode target)).1 =
          .ok (.findNode localId nodes) ∧
        ∃ peers, (server.handle t now source sender (.getPeers target)).1 =
          .ok (.getPeers localId (server.tokenFor source) (some nodes) peers) := by
  intro t
  have hformed : t.WellFormed :=
    Step.wellFormed_runAll (Table.wellFormed_empty localId capacity start) steps
  obtain ⟨hlocal, hcapacity⟩ : t.localId = localId ∧ t.capacity = capacity :=
    Step.frame_runAll ⟨.empty localId capacity start, start⟩ steps
  refine ⟨fun target limit => ?_, fun now target limit => ?_, ?_⟩
  · have hall := hformed.nearestOf_closestWhere target limit fun _ => true
    rwa [List.filter_true] at hall
  · exact hformed.nearestOf_closestWhere target limit fun m => m.standing now != .bad
  · intro secrets store now source sender target server t'
    have htold := hformed.nodes_told server hlocal.symm now source sender target
    rwa [hcapacity] at htold

/-- The member that is nearest of all is bad: it is found, but others are not told of it. -/
example :
    let contact (n : ℕ) : Contact := ⟨⟨BitVec.ofNat 160 n⟩, default⟩
    let steps : List Step :=
      [.observe (.hearsay (contact 1)), .observe (.hearsay (contact 2)),
        .observe (.hearsay (contact 3)), .markFailed (contact 1).id, .markFailed (contact 1).id]
    let t := (Step.runAll ⟨.empty ⟨8⟩ 3 0, 0⟩ steps).table
    t.closest ⟨1⟩ 2 = [contact 1, contact 3] ∧ t.closestLive 0 ⟨1⟩ 2 = [contact 3, contact 2] := by
  cbv

end Routing

end Mainline
