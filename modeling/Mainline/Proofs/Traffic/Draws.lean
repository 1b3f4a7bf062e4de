import Mathlib.Algebra.Group.Int.Even
import Mathlib.Data.List.Perm.Subperm
import Mathlib.Data.Nat.ModEq
import Mathlib.Logic.Function.Iterate
import Mathlib.Tactic.Ring
import Mainline.Proofs.Traffic.Books

/-!
# Drawing a free transaction id

The transaction id of a query is drawn again and again until it is one that no query waits under.
This ends as soon as a free id is drawn, and there is one as long as fewer queries wait than there
are ids. That it is drawn in the end is up to the source of the octets. This module proves it of
the generator behind every stream, which comes through all states of its period, and with them
through all ids.

## Main results

* `Transactions.exists_free`: there is a free id if fewer queries wait than there are ids.
* `ByteStream.exists_iterate_afterDraw`: the states that the generator comes through.
* `Transactions.mem_drawnIds_span`: a stream yields every id.
* `Transactions.exists_firstFree`: drawing ends with a free id if fewer queries wait than there are
  ids.
-/

namespace Mainline

namespace ByteStream

/-! ### The generator -/

/-- What the generator does to its state, but for the carry out of its 32 bits. -/
def successor (x : ℕ) : ℕ :=
  1664525 * x + 1013904223

/-- The state of the generator after the two octets of a draw. -/
def afterDraw (x : ℕ) : ℕ :=
  successor (successor x)

/-- After `2 ^ n` draws the lowest `n + 1` bits of the state are what they were, and the next one
has been inverted. -/
theorem iterate_afterDraw_two_pow (n : ℕ) :
    ∃ u v, ∀ x, afterDraw^[2 ^ n] x = (1 + 2 ^ (n + 3) * u) * x + 2 ^ (n + 1) * (1 + 2 * v) := by
  induction n with
  | zero =>
      refine ⟨346330434453, 421917485173324, fun x => ?_⟩
      rw [pow_zero, Function.iterate_one, afterDraw, successor, successor]
      omega
  | succ n ih =>
      obtain ⟨u, v, h⟩ := ih
      refine ⟨u + 4 * 2 ^ n * u ^ 2, v + 2 * 2 ^ n * u * (1 + 2 * v), fun x => ?_⟩
      rw [pow_succ 2 n, mul_two, Function.iterate_add_apply, h, h]
      ring

/-- The generator comes through **all states** of the parity that it begins with. -/
theorem exists_iterate_afterDraw {x y : ℕ} (parity : x ≡ y [MOD 2]) (n : ℕ) :
    ∃ k < 2 ^ n, afterDraw^[k] x ≡ y [MOD 2 ^ (n + 1)] := by
  induction n with
  | zero => exact ⟨0, one_pos, parity⟩
  | succ n ih =>
      obtain ⟨k, hlt, hk⟩ := ih
      obtain ⟨u, v, h⟩ := iterate_afterDraw_two_pow n
      obtain ⟨s, hs⟩ := Nat.modEq_iff_dvd.mp hk
      -- The next bit is right, or it is after `2 ^ n` draws more.
      obtain ⟨j, rfl | rfl⟩ := Int.even_or_odd' s
      · refine ⟨k, by omega, Nat.modEq_iff_dvd.mpr ⟨j, ?_⟩⟩
        rw [hs]
        push_cast
        ring
      · refine ⟨2 ^ n + k, by omega, Nat.modEq_iff_dvd.mpr ⟨j - 2 * u * afterDraw^[k] x - v, ?_⟩⟩
        rw [Function.iterate_add_apply, h, eq_add_of_sub_eq hs]
        push_cast
        ring

/-- There is a state with these octets. -/
theorem exists_state (first : ℕ) {second parity : ℕ} (hsecond : second < 256)
    (hparity : parity < 2) :
    ∃ y, y % 2 = parity ∧ y / 2 ^ 24 = first ∧ successor y % 2 ^ 32 / 2 ^ 24 = second := by
  -- Two states further the successor goes on by less than the second octet counts.
  obtain ⟨d, hd, hreach⟩ : ∃ d < 2 ^ 32,
      (successor (first * 2 ^ 24 + parity) + d) % 2 ^ 32 = second * 2 ^ 24 :=
    ⟨(second * 2 ^ 24 + 2 ^ 32 - successor (first * 2 ^ 24 + parity) % 2 ^ 32) % 2 ^ 32,
      by omega, by omega⟩
  obtain ⟨m, e, he, hm⟩ : ∃ m e, e < 2 * 1664525 ∧ 2 * 1664525 * m = d + e :=
    ⟨(d + 2 * 1664525 - 1) / (2 * 1664525), 2 * 1664525 * ((d + 2 * 1664525 - 1) / (2 * 1664525)) - d,
      by omega, by omega⟩
  have hsuccessor : successor (first * 2 ^ 24 + parity + 2 * m) =
      successor (first * 2 ^ 24 + parity) + d + e := by
    simp only [successor]
    omega
  refine ⟨first * 2 ^ 24 + parity + 2 * m, by omega, by omega, ?_⟩
  rw [hsuccessor]
  omega

/-- An octet that the generator yields is the highest of its new state. -/
theorem next_generated (x : UInt32) : ∃ x' : UInt32, x'.toNat = successor x.toNat % 2 ^ 32 ∧
    next ⟨[], x⟩ = (UInt8.ofNat (x'.toNat / 2 ^ 24), ⟨[], x'⟩) := by
  refine ⟨x * 1664525 + 1013904223, ?_, ?_⟩
  · rw [UInt32.toNat_add, UInt32.toNat_mul, successor]
    simp only [UInt32.reduceToNat]
    omega
  · refine Prod.ext (UInt8.toNat.inj ?_) rfl
    simp [next, Nat.shiftRight_eq_div_pow]

/-! ### Draws of two octets -/

theorem successor_modEq {x y : ℕ} (h : x ≡ y [MOD 2 ^ 32]) :
    successor x ≡ successor y [MOD 2 ^ 32] :=
  (h.mul_left 1664525).add_right 1013904223

theorem iterate_afterDraw_modEq {x y : ℕ} (h : x ≡ y [MOD 2 ^ 32]) (k : ℕ) :
    afterDraw^[k] x ≡ afterDraw^[k] y [MOD 2 ^ 32] := by
  induction k generalizing x y with
  | zero => exact h
  | succ k ih => exact ih (successor_modEq (successor_modEq h))

theorem iterate_afterDraw_successor (x k : ℕ) :
    afterDraw^[k] (successor x) = successor (afterDraw^[k] x) := by
  induction k generalizing x with
  | zero => rfl
  | succ k ih =>
      have hcomm : afterDraw (successor x) = successor (afterDraw x) := by simp only [afterDraw]
      rw [Function.iterate_succ_apply, Function.iterate_succ_apply, hcomm, ih]

/-- The two octets of a draw that finds the generator in a state. -/
def drawnAt (x : ℕ) : Bytes :=
  [UInt8.ofNat (successor x % 2 ^ 32 / 2 ^ 24), UInt8.ofNat (afterDraw x % 2 ^ 32 / 2 ^ 24)]

theorem drawnAt_congr {x y : ℕ} (h : x ≡ y [MOD 2 ^ 32]) : drawnAt x = drawnAt y := by
  have hfirst : successor x % 2 ^ 32 = successor y % 2 ^ 32 := successor_modEq h
  have hsecond : afterDraw x % 2 ^ 32 = afterDraw y % 2 ^ 32 := successor_modEq (successor_modEq h)
  rw [drawnAt, drawnAt, hfirst, hsecond]

theorem take_generated (x : UInt32) : ∃ x' : UInt32, x'.toNat ≡ afterDraw x.toNat [MOD 2 ^ 32] ∧
    take 2 ⟨[], x⟩ = (drawnAt x.toNat, ⟨[], x'⟩) := by
  obtain ⟨x₁, hx₁, hnext₁⟩ := next_generated x
  obtain ⟨x₂, hx₂, hnext₂⟩ := next_generated x₁
  have hafter : successor x₁.toNat ≡ afterDraw x.toNat [MOD 2 ^ 32] := by
    rw [hx₁]
    exact successor_modEq (Nat.mod_modEq _ _)
  refine ⟨x₂, by rw [hx₂]; exact (Nat.mod_modEq _ _).trans hafter, ?_⟩
  rw [take, hnext₁]
  dsimp only
  rw [take, hnext₂]
  dsimp only
  rw [take, drawnAt, hx₁, hx₂, hafter]

end ByteStream

namespace Transactions

open ByteStream

/-- The `k`-th draw finds the generator in the state that `k` draws have left. -/
theorem drawnAt_mem_drawnIds (x : UInt32) (k : ℕ) :
    drawnAt (afterDraw^[k] x.toNat) ∈ drawnIds (k + 1) ⟨[], x⟩ := by
  induction k generalizing x with
  | zero =>
      obtain ⟨x', -, htake⟩ := take_generated x
      rw [drawnIds, idLength, htake]
      exact List.mem_cons_self
  | succ k ih =>
      obtain ⟨x', hx', htake⟩ := take_generated x
      rw [drawnIds, idLength, htake]
      have hstate : afterDraw^[k] x'.toNat ≡ afterDraw^[k + 1] x.toNat [MOD 2 ^ 32] :=
        iterate_afterDraw_modEq hx' k
      rw [← drawnAt_congr hstate]
      exact List.mem_cons_of_mem _ (ih x')

/-- The generator draws **every id**. -/
theorem exists_mem_drawnIds_generated (x : UInt32) (first second : UInt8) :
    ∃ draws ≤ 2 ^ 31, [first, second] ∈ drawnIds draws ⟨[], x⟩ := by
  obtain ⟨y, hparity, hfirst, hsecond⟩ := exists_state first.toNat second.toNat_lt
    (Nat.mod_lt (successor x.toNat) two_pos)
  obtain ⟨k, hlt, hk⟩ :=
    exists_iterate_afterDraw (Eq.symm hparity : successor x.toNat ≡ y [MOD 2]) 31
  rw [iterate_afterDraw_successor] at hk
  refine ⟨k + 1, hlt, ?_⟩
  have hdrawn : drawnAt (afterDraw^[k] x.toNat) = [first, second] := by
    have hstate : successor (afterDraw^[k] x.toNat) % 2 ^ 32 = y % 2 ^ 32 := hk
    have hnext : afterDraw (afterDraw^[k] x.toNat) % 2 ^ 32 = successor y % 2 ^ 32 :=
      successor_modEq hk
    have hsmall : y % 2 ^ 32 = y := by
      have := first.toNat_lt
      omega
    rw [drawnAt, hstate, hnext, hsmall, hfirst, hsecond, UInt8.ofNat_toNat, UInt8.ofNat_toNat]
  rw [← hdrawn]
  exact drawnAt_mem_drawnIds x k

theorem given_take (n : ℕ) (stream : ByteStream) :
    (stream.take n).2.given = stream.given.drop n := by
  induction n generalizing stream with
  | zero => rfl
  | succ n ih =>
      rw [take]
      dsimp only
      rw [ih]
      obtain ⟨_ | ⟨octet, given⟩, state⟩ := stream
      · exact List.drop_nil.trans List.drop_nil.symm
      · rfl

/-- Once the octets that were given are used up, the generator draws. -/
theorem exists_generated (stream : ByteStream) :
    ∃ n ≤ stream.given.length, ∃ x, ∀ draws, drawnIds draws ⟨[], x⟩ ⊆ drawnIds (n + draws) stream := by
  induction hlength : stream.given.length using Nat.strong_induction_on generalizing stream with
  | h length ih =>
      cases hgiven : stream.given with
      | nil =>
          refine ⟨0, Nat.zero_le _, stream.state, fun draws => ?_⟩
          have hstream : stream = ⟨[], stream.state⟩ := by rw [← hgiven]
          rw [Nat.zero_add, ← hstream]
          exact List.Subset.refl _
      | cons octet given =>
          have hless : (stream.take idLength).2.given.length < length := by
            rw [given_take, List.length_drop, idLength, ← hlength, hgiven, List.length_cons]
            omega
          obtain ⟨n, hn, x, hsubset⟩ := ih _ hless _ rfl
          refine ⟨n + 1, by omega, x, fun draws => ?_⟩
          rw [Nat.add_right_comm, drawnIds]
          exact List.subset_cons_of_subset _ (hsubset draws)

/-- Who draws more often draws the same ids first. -/
theorem drawnIds_subset {draws draws' : ℕ} (hle : draws ≤ draws') (stream : ByteStream) :
    drawnIds draws stream ⊆ drawnIds draws' stream := by
  induction draws' generalizing draws stream with
  | zero =>
      obtain rfl := Nat.le_zero.mp hle
      exact List.Subset.refl _
  | succ draws' ih =>
      cases draws with
      | zero => exact List.nil_subset _
      | succ draws => exact List.cons_subset_cons _ (ih (Nat.le_of_succ_le_succ hle) _)

/-- **A stream yields every id.** -/
theorem mem_drawnIds_span {transaction : Bytes} (h : transaction.length = idLength)
    (stream : ByteStream) : transaction ∈ drawnIds stream.span stream := by
  obtain ⟨first, second, rfl⟩ := List.length_eq_two.mp h
  obtain ⟨n, hn, x, hsubset⟩ := exists_generated stream
  obtain ⟨draws, hdraws, hmem⟩ := exists_mem_drawnIds_generated x first second
  have hle : n + draws ≤ stream.span := Nat.add_le_add hn (hdraws.trans (by decide))
  exact drawnIds_subset hle stream (hsubset draws hmem)

/-! ### Free ids -/

/-- All transaction ids, in ascending order. -/
def allIds : List Bytes :=
  (List.range 65536).map (bigEndian idLength)

/-- All ids differ. -/
theorem nodup_allIds : allIds.Nodup := by
  refine List.Nodup.map_on (fun m hm n hn heq => ?_) List.nodup_range
  have hvalue := congrArg ofBigEndian heq
  rw [ofBigEndian_bigEndian, ofBigEndian_bigEndian] at hvalue
  have hm := List.mem_range.mp hm
  have hn := List.mem_range.mp hn
  rwa [idLength, Nat.mod_eq_of_lt hm, Nat.mod_eq_of_lt hn] at hvalue

variable {t : Transactions}

/-- **There is a free id** as long as fewer queries wait than there are ids. -/
theorem exists_free (h : t.pending.length < 65536) :
    ∃ transaction : Bytes, transaction.length = idLength ∧ transaction ∉ t.ids := by
  by_contra hnone
  have hsubset : allIds ⊆ t.ids := fun transaction hmem => by
    by_contra hfree
    obtain ⟨n, -, rfl⟩ := List.mem_map.mp hmem
    exact hnone ⟨_, bigEndian_length idLength n, hfree⟩
  have hle := (nodup_allIds.subperm hsubset).length_le
  rw [allIds, ids, List.length_map, List.length_map, List.length_range] at hle
  omega

/-- **Drawing ends with a free id** as long as fewer queries wait than there are ids. -/
theorem exists_firstFree (h : t.pending.length < 65536) {draws : ℕ} {stream : ByteStream}
    (enough : stream.span ≤ draws) : ∃ transaction, t.FirstFree draws stream transaction := by
  obtain ⟨free, hlength, hfree⟩ := exists_free h
  have hmem := drawnIds_subset enough stream (mem_drawnIds_span hlength stream)
  cases hdrawn : (t.drawId draws stream).1 with
  | none => exact absurd (drawId_eq_none_iff.mp hdrawn free hmem) hfree
  | some transaction => exact ⟨transaction, drawId_eq_some_iff.mp hdrawn⟩

end Transactions

end Mainline
