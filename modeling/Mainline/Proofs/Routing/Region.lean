import Mainline.Proofs.Key.Bits
import Mainline.Proofs.Routing.Offer

/-!
# The region of a bucket

Which bucket an id belongs to is told by the number of bits that it shares with the table's own id.
The region of a bucket is made in another way: a bit of the own id is flipped, and the bits up to
that one are kept. Regions are what random targets are drawn from when a bucket is refreshed, so if
the two did not match, some buckets would be refreshed with the ids of others.

## Main results

* `Table.contains_bucketRegion_iff`: the region of a bucket holds the ids that belong to it.
* `regions_are_buckets`: regions divide the ids among them, and each is drawn from in full.
-/

namespace Mainline.Routing

namespace Table

variable (t : Table) (i : Fin 160) (id : Key)

/-- **The region of a bucket holds the ids that belong to it.** Both are the ids that agree with the
table's own before bit `i` and differ from it there. -/
theorem contains_bucketRegion_iff :
    (t.bucketRegion i).contains id = true ↔ t.bucketIndex? id = some i := by
  have hi : (i : ℕ) < 160 := i.isLt
  have hbits : min ((i : ℕ) + 1) 160 = i + 1 := Nat.min_eq_left hi
  -- below bit `i` the flipped id is the own one, and at bit `i` it is not
  have hbefore : ∀ j < (i : ℕ), (t.localId.flipBit i).bit j = t.localId.bit j := by
    intro j hj
    rw [Key.bit_flipBit _ hi, decide_eq_false (Nat.ne_of_lt hj), Bool.xor_false]
  have hat : (t.localId.flipBit i).bit i = !t.localId.bit i := by
    rw [Key.bit_flipBit _ hi, decide_eq_true rfl, Bool.xor_true]
  rw [bucketRegion, Prefix.contains_leading_iff, hbits, Key.agreeUpTo_succ_iff, hat,
    bucketIndex?_eq_some_iff, Key.sharedBits_eq_iff hi]
  refine and_congr (forall₂_congr fun j hj => ?_) ?_
  · rw [hbefore j hj, eq_comm]
  · rw [Bool.eq_not, ne_comm]

/-- Each id but the table's own lies in exactly one region. -/
theorem existsUnique_contains_bucketRegion_iff :
    (∃! j, (t.bucketRegion j).contains id = true) ↔ id ≠ t.localId := by
  simp only [contains_bucketRegion_iff]
  rw [Ne, ← t.bucketIndex?_eq_none_iff id]
  cases hindex : t.bucketIndex? id with
  | none => simp [ExistsUnique]
  | some j => simp [ExistsUnique]

end Table

/-- **Regions are buckets.** An id lies in the region of a bucket exactly if it belongs to the
bucket. So the regions of the 160 buckets divide the ids among them: each id but the table's own
lies in exactly one of them, and the own id lies in none. An id can be drawn from the region of a
bucket, from one stream of random octets or another, exactly if it belongs to the bucket. -/
theorem regions_are_buckets (t : Table) (i : Fin 160) :
    (∀ id, (t.bucketRegion i).contains id = true ↔ t.bucketIndex? id = some i) ∧
    (∀ id, (∃! j, (t.bucketRegion j).contains id = true) ↔ id ≠ t.localId) ∧
    (t.bucketRegion i).contains t.localId = false ∧
    (∀ stream, t.bucketIndex? ((t.bucketRegion i).sample stream).1 = some i) ∧
    ∀ id, (∃ stream, ((t.bucketRegion i).sample stream).1 = id) ↔ t.bucketIndex? id = some i := by
  have hdrawn : ∀ id, (∃ stream, ((t.bucketRegion i).sample stream).1 = id) ↔
      t.bucketIndex? id = some i :=
    fun id => Prefix.exists_sample_iff.trans (t.contains_bucketRegion_iff i id)
  refine ⟨t.contains_bucketRegion_iff i, t.existsUnique_contains_bucketRegion_iff, ?_,
    fun stream => (hdrawn _).mp ⟨stream, rfl⟩, hdrawn⟩
  rw [Bool.eq_false_iff, Ne, t.contains_bucketRegion_iff, (t.bucketIndex?_eq_none_iff _).mpr rfl]
  exact Option.some_ne_none i ∘ Eq.symm

/-- The last bucket is for one id alone, in whichever way it is drawn. -/
example :
    let t : Table := .empty ⟨6⟩ 8 0
    t.bucketIndex? ⟨7⟩ = some 159 ∧ ((t.bucketRegion 159).sample ⟨[0], 0⟩).1 = ⟨7⟩ ∧
      ((t.bucketRegion 159).sample ⟨[255], 0⟩).1 = ⟨7⟩ := by
  decide +kernel

end Mainline.Routing
