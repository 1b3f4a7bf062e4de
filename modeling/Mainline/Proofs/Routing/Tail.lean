import Mathlib.Data.Finset.Max
import Mathlib.Data.Fintype.Basic
import Mainline.Proofs.Key.Bits
import Mainline.Proofs.Routing.Source

/-!
# The empty tail of a table

A node that looks up its own id is told of nodes nearer and nearer to it, and ends with those that
its table holds nearest. The buckets behind the last one with members are for ids that are nearer
still, so the lookup asks for none of them, and they are refreshed on their own account:
`Table.emptyTail` lists them. This module says which they are, by their numbers, by the bits that
their ids share with the table's own, and by distance.

## Main results

* `Table.IsDeepest.map_emptyTail`: the numbers of the buckets in the tail.
* `Table.WellFormed.deepest_lt_iff`: a bucket is in the tail if its ids share more bits than members.
* `empty_tail_is_nearer_than_members`: the law, for every table that steps lead to.
-/

namespace Mainline.Routing

namespace Table

variable {t : Table} {deepest : Fin 160}

/-- The bucket is the **deepest** one that has members: those behind it have none. -/
structure IsDeepest (t : Table) (deepest : Fin 160) : Prop where
  held : (t.bucket deepest).members ≠ []
  behind : ∀ j, deepest < j → (t.bucket j).members = []

/-- A table with members has a deepest bucket. -/
theorem exists_isDeepest (h : t.members ≠ []) : ∃ deepest, t.IsDeepest deepest := by
  let held : Finset (Fin 160) := Finset.univ.filter fun i => (t.bucket i).members ≠ []
  have hmem : ∀ i, i ∈ held ↔ (t.bucket i).members ≠ [] := fun i => by simp [held]
  obtain ⟨i, hi⟩ := not_forall.mp (mt members_eq_nil_iff.mpr h)
  have hsome : held.Nonempty := ⟨i, (hmem i).mpr hi⟩
  refine ⟨held.max' hsome, (hmem _).mp (held.max'_mem hsome), fun j hj => ?_⟩
  by_contra hother
  exact absurd hj (not_lt_of_ge (held.le_max' j ((hmem j).mpr hother)))

/-- Each bucket parts the others into those before it and those behind, which follow without gap. -/
theorem finRange_split (i : Fin 160) : ∃ before behind : List (Fin 160),
    List.finRange 160 = before ++ i :: behind ∧
      behind.map Fin.val = List.range' (i + 1) (159 - i) := by
  refine ⟨(List.finRange 160).take i, (List.finRange 160).drop (i + 1), ?_, ?_⟩
  · have hi : (i : ℕ) < (List.finRange 160).length := by simp
    have hget : (List.finRange 160)[(i : ℕ)] = i := by simp
    have hdrop := List.drop_eq_getElem_cons hi
    rw [hget] at hdrop
    rw [← hdrop, List.take_append_drop]
  · rw [List.map_drop, List.map_coe_finRange_eq_range, List.range_eq_range', List.drop_range']
    congr 1 <;> omega

/-- **The empty tail** is the buckets behind the deepest one, the last of them first. -/
theorem IsDeepest.map_emptyTail (h : t.IsDeepest deepest) :
    t.emptyTail.map Fin.val = (List.range' (deepest + 1) (159 - deepest)).reverse := by
  obtain ⟨before, behind, hsplit, hbehind⟩ := finRange_split deepest
  have hpopulated : t.isEmpty = false := by
    refine beq_eq_false_iff_ne.mpr fun hzero => h.held ?_
    exact members_eq_nil_iff.mp (List.length_eq_zero_iff.mp hzero) deepest
  have hempty : ∀ i ∈ behind.reverse, (t.bucket i).members.isEmpty = true := by
    intro i hi
    have hval : (i : ℕ) ∈ behind.map Fin.val := List.mem_map_of_mem (List.mem_reverse.mp hi)
    rw [hbehind, List.mem_range'_1] at hval
    exact List.isEmpty_iff.mpr (h.behind i hval.1)
  have hstop : ¬ (t.bucket deepest).members.isEmpty = true := mt List.isEmpty_iff.mp h.held
  rw [emptyTail, hpopulated, if_neg Bool.false_ne_true, hsplit, List.reverse_append,
    List.reverse_cons, List.append_assoc, List.takeWhile_append_of_pos hempty,
    List.singleton_append, List.takeWhile_cons, if_neg hstop, List.append_nil, List.map_reverse,
    hbehind]

theorem IsDeepest.mem_emptyTail_iff (h : t.IsDeepest deepest) (i : Fin 160) :
    i ∈ t.emptyTail ↔ deepest < i := by
  have hval : i ∈ t.emptyTail ↔ (i : ℕ) ∈ t.emptyTail.map Fin.val :=
    (List.mem_map_of_injective Fin.val_injective).symm
  rw [hval, h.map_emptyTail, List.mem_reverse, List.mem_range'_1, Fin.lt_def]
  omega

/-- A bucket is behind the deepest one exactly if its ids share more bits with the table's own than
those of all members do. -/
theorem WellFormed.deepest_lt_iff (wellFormed : t.WellFormed) (h : t.IsDeepest deepest)
    (i : Fin 160) : deepest < i ↔ ∀ m ∈ t.members, t.localId.sharedBits m.id < i := by
  constructor
  · intro hi m hm
    obtain ⟨j, hj⟩ := (t.mem_members_iff m).mp hm
    rw [wellFormed.shared j m.id (List.mem_map_of_mem hj)]
    have hle : ¬ deepest < j := fun hlt => List.ne_nil_of_mem hj (h.behind j hlt)
    exact Nat.lt_of_le_of_lt (Nat.le_of_not_lt hle) hi
  · intro hshared
    obtain ⟨m, hm⟩ := List.exists_mem_of_ne_nil _ h.held
    have hlt := hshared m (mem_members_of_bucket hm)
    rwa [wellFormed.shared deepest m.id (List.mem_map_of_mem hm)] at hlt

end Table

/-- **The empty tail is what is nearer than all members.** In every table that steps from the empty
one lead to, the tail consists of exactly the buckets behind the deepest one that has members, from
bucket 159 downwards and without gaps; of none, if there are no members. If there are, an id other
than the table's own falls into the tail exactly if it shares more leading bits with the own id than
every member does, and then it is nearer to the own id than every member is. -/
theorem empty_tail_is_nearer_than_members (localId : Key) (capacity : ℕ) (start : Instant)
    (steps : List Step) :
    let t := (Step.runAll ⟨.empty localId capacity start, start⟩ steps).table
    (t.members = [] → t.emptyTail = []) ∧
    (t.members ≠ [] →
      (∃ deepest : Fin 160, (t.bucket deepest).members ≠ [] ∧
        (∀ j, deepest < j → (t.bucket j).members = []) ∧
        t.emptyTail.map Fin.val = (List.range' (deepest + 1) (159 - deepest)).reverse) ∧
      ∀ x, x ≠ localId →
        ((∃ i ∈ t.emptyTail, t.bucketIndex? x = some i) ↔
          ∀ m ∈ t.members, localId.sharedBits m.id < localId.sharedBits x) ∧
        ((∃ i ∈ t.emptyTail, t.bucketIndex? x = some i) →
          ∀ m ∈ t.members, x.distance localId < m.id.distance localId)) := by
  intro t
  have wellFormed : t.WellFormed :=
    Step.wellFormed_runAll (Table.wellFormed_empty localId capacity start) steps
  have hlocal : t.localId = localId := (Step.frame_runAll _ steps).1
  refine ⟨fun hnone => if_pos (beq_iff_eq.mpr (congrArg List.length hnone)), fun hsome => ?_⟩
  obtain ⟨deepest, h⟩ := Table.exists_isDeepest hsome
  refine ⟨⟨deepest, h.held, h.behind, h.map_emptyTail⟩, fun x hx => ?_⟩
  rw [← hlocal]
  have hindex : ∃ i, t.bucketIndex? x = some i := by
    refine Option.ne_none_iff_exists'.mp ?_
    rw [Ne, t.bucketIndex?_eq_none_iff, hlocal]
    exact hx
  obtain ⟨i, hi⟩ := hindex
  have hshared := (t.bucketIndex?_eq_some_iff x i).mp hi
  have hfalls : (∃ j ∈ t.emptyTail, t.bucketIndex? x = some j) ↔
      ∀ m ∈ t.members, t.localId.sharedBits m.id < t.localId.sharedBits x := by
    rw [hi, hshared, ← wellFormed.deepest_lt_iff h i, ← h.mem_emptyTail_iff i]
    simp only [Option.some.injEq, exists_eq_right']
  refine ⟨hfalls, fun falls m hm => ?_⟩
  rw [Key.distance_comm x, Key.distance_comm m.id]
  exact Distance.lt_of_leadingZeros_lt (hfalls.mp falls m hm)

/-- Of two members the nearer one is removed again: its id falls into the tail then, and is nearer than
the member that is left. The table without members has no tail. -/
theorem empty_tail_after_removal :
    let far : Key := ⟨BitVec.twoPow 160 154⟩
    let near : Key := ⟨1⟩
    let steps : List Step := [.observe (.hearsay ⟨far, default⟩), .observe (.hearsay ⟨near, default⟩),
      .remove near]
    let t := (Step.runAll ⟨.empty ⟨0⟩ 8 0, 0⟩ steps).table
    (t.members = [.hearsay ⟨far, default⟩] ∧ near ≠ ⟨0⟩ ∧
        (⟨0⟩ : Key).sharedBits far < (⟨0⟩ : Key).sharedBits near) ∧
      ((∃ i ∈ t.emptyTail, t.bucketIndex? near = some i) ∧ near.distance ⟨0⟩ < far.distance ⟨0⟩) ∧
      (Table.empty ⟨0⟩ 8 0).members = [] ∧ (Table.empty ⟨0⟩ 8 0).emptyTail = [] := by
  intro far near steps t
  have held : t.members = [.hearsay ⟨far, default⟩] := by decide +kernel
  have shared : (⟨0⟩ : Key).sharedBits far < (⟨0⟩ : Key).sharedBits near := by decide
  have member : Member.hearsay ⟨far, default⟩ ∈ t.members := held ▸ List.mem_singleton_self _
  have law := (empty_tail_is_nearer_than_members ⟨0⟩ 8 0 steps).2 (List.ne_nil_of_mem member)
  obtain ⟨hshared, hnearer⟩ := law.2 near (by decide)
  have falls : ∃ i ∈ t.emptyTail, t.bucketIndex? near = some i := by
    refine hshared.mpr fun m hm => ?_
    obtain rfl := List.mem_singleton.mp (held ▸ hm)
    exact shared
  have nearer := hnearer falls _ member
  have none : (Table.empty ⟨0⟩ 8 0).members = [] := by decide +kernel
  refine ⟨⟨held, by decide, shared⟩, ⟨falls, nearer⟩, none, ?_⟩
  exact (empty_tail_is_nearer_than_members ⟨0⟩ 8 0 []).1 none

end Mainline.Routing
